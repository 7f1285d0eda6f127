import AuthServer.Service.Authorize
import AuthServer.Service.Registration
import AuthServer.Text.QueryString

/-!
# The authorize endpoint and the consent form

`GET /oauth/authorize` (`api/public/oauth/handlers.go`) and `POST /consent` (`consent.go`) around
the services, with unknown clients registered by their metadata document on the way (`lookupClient`
of `internal/services/authorize.go`). Both answer with a page, send the user to a page of this
server, or redirect to the client.

A redirect to the client is given as the URL that `http.Redirect` is called with: the parsed
redirect URI, and the query that is put in place of its own. A redirect URI that was validated has a
scheme, and such a URL is passed on as it is. -/

namespace AuthServer

open Interleave

/-- A redirect to a client: the URL, and its query. -/
structure Target where
  url : ParsedURL
  query : Bytes
  deriving DecidableEq, Repr

/-- What the two handlers answer. -/
inductive Answer
  | page (status : ℕ) (title message : String)
  /-- This server's login page. -/
  | login
  /-- This server's consent page. -/
  | consent (sessionID : String)
  | redirect (target : Target)
  deriving DecidableEq, Repr

structure Web (env : Env) where
  /-- The registration of unknown clients, if it is wired. -/
  cimd : Option (Registrar env)
  /-- `IssuerProvider.Issuer`. -/
  issuer : ReqID → Except Err String
  /-- `domain.ErrorCode` and `Error` of a domain error. -/
  describe : Err → Option (String × String)

/-! ### Redirects to the client -/

def redirectWith (env : Env) (redirectURI : String) (params : List (String × String)) : Answer :=
  match env.urlParse redirectURI with
  | none => .page 500 "Error" "Invalid redirect URI"
  | some u =>
    let q := params.foldl (fun q p => Query.set (bytesOf p.1) (bytesOf p.2) q)
      (Query.parse (bytesOf u.rawQuery))
    .redirect ⟨u, Query.encode q⟩

/-- The parameters at the end of both responses. -/
def stateAndIssuer (state iss : String) : List (String × String) :=
  (if state != "" then [("state", state)] else []) ++ [("iss", iss)]

def redirectWithCode (env : Env) (redirectURI code state iss : String) : Answer :=
  redirectWith env redirectURI (("code", code) :: stateAndIssuer state iss)

def redirectWithError (env : Env) (redirectURI state errCode description iss : String) : Answer :=
  redirectWith env redirectURI
    (("error", errCode) :: ("error_description", description) :: stateAndIssuer state iss)

namespace AuthorizeService

/-- Register a client by its document, if that is wired. -/
def register {env : Env} (ctx : ReqID) (clientID : String) : Option (Registrar env) → Svc Client
  | some reg => do
    let verified ← (CIMDService.verifyCIMD reg ctx clientID).attempt
    Prog.ofExcept (verified.mapError fun _ => .sentinel .invalidClient)
  | none => Prog.fail (.sentinel .invalidClient)

end AuthorizeService

/-! ### `GET /oauth/authorize` -/

namespace OAuthHandler

def errorPage (err : Err) : Option Answer :=
  if err.is .invalidClient then some (.page 400 "Invalid Client" "The client_id is not recognized.")
  else if err.is .invalidRedirectURI then
    some (.page 400 "Invalid Redirect URI"
      "The redirect_uri does not match the client registration.")
  else if err.is .clientSuspended then
    some (.page 403 "Client Suspended" "This client has been suspended.")
  else if err.is .invalidGrant then
    some (.page 400 "Authorization Error"
      "The requested grant type or response type is not supported.")
  else if err.is .consentResourceNotMint then
    some (.page 400 "Invalid Resource"
      "Consent is only available for MCP resources, not upstream broker resources.")
  else if err.is .resourceNotFound then
    some (.page 400 "Unknown Resource"
      "The requested resource is not registered with this authorization server.")
  else if err.is .ambiguousResource then
    some (.page 400 "Ambiguous Resource"
      ("The resource identifier matches more than one resource. " ++
      "Use the resource slug to disambiguate."))
  else none

/-- `handleAuthorizeError`: all errors but those of `errorPage` go to the redirect URI, if there is
one. -/
def handleAuthorizeError {env : Env} (web : Web env) (req : AuthorizeRequest) (err : Err)
    (iss : String) : Answer :=
  match errorPage err with
  | some page => page
  | none =>
    let described := (web.describe err).getD ("server_error", "an internal error occurred")
    if req.redirectURI != "" then
      redirectWithError env req.redirectURI req.state described.1 described.2 iss
    else .page 400 "Authorization Error" described.2

/-- What remains when neither login nor consent is required. -/
def complete (env : Env) (ctx : ReqID) (req : AuthorizeRequest)
    (iss sessionID : String) : Svc Answer := do
  let completed ← (AuthorizeService.completeAuthorization env ctx sessionID).attempt
  match completed with
  | .error _ =>
    pure (redirectWithError env req.redirectURI req.state "server_error" "authorization failed" iss)
  | .ok c => pure (redirectWithCode env c.redirectURI c.code c.state iss)

/-- `handleAuthorize`, once the issuer is known. -/
def authorizeAs {env : Env} (web : Web env) (ctx : ReqID) (req : AuthorizeRequest)
    (iss : String) : Svc Answer := do
  let register := AuthorizeService.register ctx req.clientID web.cimd
  let started ← (AuthorizeService.startAuthorization env register ctx req).attempt
  match started with
  | .error err => pure (handleAuthorizeError web req err iss)
  | .ok result =>
    if result.loginRequired then pure .login
    else if result.consentRequired then pure (.consent result.session.id)
    else complete env ctx req iss result.session.id

/-- `resolveIssuer`: without an issuer there is only a page. -/
def resolveIssuer {env : Env} (web : Web env) (ctx : ReqID) : Except Answer String :=
  match web.issuer ctx with
  | .error _ => .error (.page 500 "Error" "The authorization server could not resolve its issuer.")
  | .ok iss =>
    if iss == "" then
      .error (.page 500 "Error" "The authorization server has no issuer configured.") else .ok iss

/-- `OAuthHandler.HandleAuthorize`. -/
def handleAuthorize {env : Env} (web : Web env) (ctx : ReqID)
    (req : AuthorizeRequest) : Svc Answer :=
  match resolveIssuer web ctx with
  | .error page => pure page
  | .ok iss => authorizeAs web ctx req iss

end OAuthHandler

/-! ### `POST /consent` -/

/-- What a consent submission carries. -/
structure ConsentForm where
  /-- Could the form be parsed? -/
  parsed : Bool
  /-- The user of the session cookie. -/
  userID : Option String
  /-- `ValidateCSRF`, if there is a cookie. -/
  csrf : Option (Except Err Bool)
  sessionID : String
  action : String
  scopes : List String

namespace ConsentHandler

def errorPage (err : Err) : Answer :=
  if err.is .consentResourceNotMint then
    .page 400 "Invalid Resource"
      "Consent is only available for MCP resources, not upstream broker resources."
  else if err.is .resourceNotFound then
    .page 400 "Unknown Resource"
      "The requested resource is not registered with this authorization server."
  else if err.is .ambiguousResource then
    .page 400 "Ambiguous Resource" ("The resource identifier matches more than one resource. " ++
      "Use the resource slug to disambiguate.")
  else .page 400 "Consent Error" "Failed to process consent. The session may have expired."

def checkForm (form : ConsentForm) : Except Answer String :=
  if !form.parsed then .error (.page 400 "Invalid Form" "Could not parse form data.")
  else
    match form.userID, form.csrf with
    | none, _ => .error (.page 401 "Not Authenticated" "Please log in first.")
    | _, some (.error _) =>
      .error (.page 500 "Internal Error" "Could not validate the request. Please try again.")
    | some userID, some (.ok true) => .ok userID
    | _, _ => .error (.page 403 "Invalid Request" "CSRF validation failed. Please try again.")

def approve {env : Env} (web : Web env) (ctx : ReqID) (form : ConsentForm)
    (userID : String) : Svc Answer :=
  if form.scopes.isEmpty then
    pure (.page 400 "No Permissions Selected"
      ("You must approve at least one permission to continue. " ++
      "Use the Deny button if you do not want to grant access."))
  else
    match OAuthHandler.resolveIssuer web ctx with
    | .error _ => pure (.page 500 "Error" "The authorization server could not resolve its issuer.")
    | .ok iss => do
      let granted ← (ConsentService.grantConsent env ctx
        ⟨form.sessionID, userID, form.scopes⟩).attempt
      match granted with
      | .error err => pure (errorPage err)
      | .ok result => pure (redirectWithCode env result.redirectURI result.code result.state iss)

/-- `ConsentHandler.HandlePostConsent`. -/
def handlePostConsent {env : Env} (web : Web env) (ctx : ReqID) (form : ConsentForm) : Svc Answer :=
  match checkForm form with
  | .error page => pure page
  | .ok userID =>
    if form.action == "deny" then do
      let _ ← (ConsentService.denyConsent form.sessionID userID).attempt
      pure (.page 200 "Access Denied" "You denied access to the application.")
    else approve web ctx form userID

end ConsentHandler

end AuthServer
