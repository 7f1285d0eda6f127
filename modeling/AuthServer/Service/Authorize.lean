import AuthServer.Service.Token

/-!
# Authorization and consent

`AuthorizeService` and `ConsentService.GrantConsent`: storing an authorization request as a session,
recording what the user approves, and giving the session a code. The HTTP handler's part is
`handleAuthorize`: a code is issued at once when the user is known and a live grant already covers
the request. Registration of clients from their metadata documents is left out, so a client that is
not in the table is not found.
-/

namespace AuthServer

open Interleave

/-- The parameters of the endpoint. -/
structure AuthorizeRequest where
  clientID : String
  redirectURI : String
  responseType : String
  scope : String
  state : String
  resource : String
  codeChallenge : String
  codeChallengeMethod : String
  /-- The user the HTTP session names, empty when nobody is logged in. -/
  userID : String
  deriving DecidableEq, Repr

structure AuthorizeResult where
  session : AuthSession
  loginRequired : Bool
  consentRequired : Bool
  deriving DecidableEq, Repr

/-- `input.CompleteAuthResult`, which is also what a consent submission returns. -/
structure CompleteAuthResult where
  redirectURI : String
  code : String
  state : String
  deriving DecidableEq, Repr

structure GrantConsentRequest where
  sessionID : String
  userID : String
  approvedScopes : List String
  deriving DecidableEq, Repr

def isLoopback (host : String) : Bool :=
  host == "localhost" || host == "127.0.0.1" || host == "::1"

variable (env : Env)

/-- `matchesLoopbackRedirect`: equal but for the port, on a loopback address. -/
def matchesLoopbackRedirect (registered uri : String) : Bool :=
  match env.urlParse registered, env.urlParse uri with
  | some r, some u => isLoopback r.hostname && r.scheme == u.scheme && r.hostname == u.hostname &&
      r.path == u.path && r.rawQuery == u.rawQuery
  | _, _ => false

def Client.hasRedirectURI (c : Client) (uri : String) : Bool :=
  c.redirectURIs.any fun registered => registered == uri ||
    matchesLoopbackRedirect env registered uri

/-- Resolve the named resource, if one is named, and insist on Mint. -/
def resolveMint (slugOrURI : String) : Svc (Option Resource) :=
  if slugOrURI == "" then pure none
  else do
    let r ← fetch (ResourceRegistry.resolve slugOrURI)
    failIf (!r.isMint) (.sentinel .consentResourceNotMint)
    pure (some r)

namespace AuthorizeService

/-- Does the identifier look like a metadata document's URL? -/
def isURLClientID (clientID : String) : Bool :=
  "http://".toList.isPrefixOf clientID.toList || "https://".toList.isPrefixOf clientID.toList

variable (register : Svc Client)

/-- The client that was found under the URL of its document, or a new one. -/
def foundOrRegister : Except Err (Option Client) → Svc Client
  | .ok (some c) => pure c
  | .ok none => register
  | .error _ => Prog.fail (.sentinel .invalidClient)

/-- The lookup of a client that is not known by its identifier. -/
def lookupByURL (clientID : String) : Svc Client :=
  if isURLClientID clientID then do
    let found ← (fetch (ClientStore.getByCIMDURL clientID)).attempt
    foundOrRegister register found
  else Prog.fail (.sentinel .invalidClient)

/-- `AuthorizeService.lookupClient`, with the registration of an unknown client by its document. -/
def lookupClient (clientID : String) : Svc Client := do
  let r ← (fetch (ClientStore.getByID clientID)).attempt
  match r with
  | .ok c => pure c
  | .error _ => lookupByURL register clientID

variable (resources : List Resource)

/-- The catalog `collectDefaultScopes` and `validateScopes` read: that of the first resource with
the URI, or all of them when none is given. -/
def catalogFor (uri : String) : List String :=
  if uri == "" then resources.flatMap Resource.catalog
  else ((resources.find? (·.uri == uri)).map Resource.catalog).getD []

/-- Why no scope is left to propose. -/
def emptyDefaultReason (ceilingSet : Bool) (uri : String) : String :=
  if ceilingSet then "the client's registered scopes and the resource's scopes do not overlap"
  else if uri == "" then "no registered resource declares any scope"
  else "the requested resource declares no scopes"

/-- The scope an authorization request without one is given: the catalog, within the client's
ceiling. -/
def defaultScope (c : Client) (uri : String) : Except Err String :=
  let ceiling := ScopeSet.parse c.scope
  let catalog := ScopeSet.parse (Text.join (catalogFor resources uri).dedup)
  let defaulted := if ceiling.isEmpty then catalog else catalog.intersect ceiling
  if defaulted.toString == "" then
    .error (.wrapped .invalidScope ("no scope is available to this client on the " ++
      "requested resource: " ++ emptyDefaultReason (!ceiling.isEmpty) uri))
  else .ok defaulted.toString

/-- The scope of the request, defaulted only when the parameter is empty. -/
def requestedScope (req : AuthorizeRequest) (c : Client) (uri : String) : Svc String :=
  if req.scope != "" then pure req.scope
  else do
    failIf env.requireScope
      (.wrapped .invalidScope "scope parameter is required (oauth.require_scope=true)")
    let resources ← wrapErr "collect default scopes: list resources"
      (fetch fun w => .ok (ResourceStore.list w))
    Prog.ofExcept (defaultScope resources c uri)

/-- The client's registered ceiling; an empty one does not bound. -/
def checkCeiling (c : Client) (scope : String) : Except Err Unit :=
  if (ScopeSet.parse c.scope).isEmpty ||
    (ScopeSet.parse scope).isSubset (ScopeSet.parse c.scope) then
    .ok ()
  else .error (scopeDenialError c (ScopeSet.parse c.scope))

/-- `validateScopes`, on the resources listed. -/
def checkCatalog (scope uri : String) : Except Err Unit :=
  let allowed := catalogFor resources uri
  if allowed.isEmpty then
    .error (.wrapped .invalidScope ("no scopes registered for resource " ++ env.quote uri))
  else
    match (Text.fields scope).find? fun sc => !allowed.contains sc with
    | some sc => .error (.wrapped .invalidScope
        ("scope " ++ env.quote sc ++ " not allowed for resource " ++ env.quote uri))
    | none => .ok ()

/-- `AuthorizeService.validateScopes`, where there is a scope and a resource to check. -/
def validateScopes (scope uri : String) : Svc Unit :=
  if scope == "" || uri == "" then pure ()
  else do
    let resources ← wrapErr "validate scopes: list resources"
      (fetch fun w => .ok (ResourceStore.list w))
    Prog.ofExcept (checkCatalog env resources scope uri)

/-- Does a live grant already cover the request? -/
def consentCovers (userID clientID scope : String) : Option Resource → Svc Bool
  | none => pure false
  | some r =>
    if userID == "" then pure false
    else do
      let grant ← wrapErr "check consent" (fetch (ConsentGrantStore.get userID clientID r.id))
      pure (grant.any fun g => !g.isRevoked && g.coversScopes (Text.fields scope))

/-- The session of the request. -/
def sessionOf (req : AuthorizeRequest) (c : Client) (id scope uri : String) (now : Time) :
    AuthSession where
  id := id
  clientID := c.id
  userID := req.userID
  redirectURI := req.redirectURI
  scope := scope
  resource := uri
  state := req.state
  codeHash := ""
  codeChallenge := req.codeChallenge
  codeChallengeMethod := req.codeChallengeMethod
  expiresAt := now + authCodeTTL
  consumedAt := none
  createdAt := now

/-- `StartAuthorization` from when the client has been found. -/
def startFor (ctx : ReqID) (req : AuthorizeRequest) (c : Client) : Svc AuthorizeResult := do
  failIf (!c.isActive) (.sentinel .clientSuspended)
  failIf (!c.hasRedirectURI env req.redirectURI) (.sentinel .invalidRedirectURI)
  failIf (req.codeChallenge == "") (.wrapped .invalidPKCE "code_challenge is required")
  failIf (req.codeChallengeMethod != "S256") (.wrapped .invalidPKCE
    ("unsupported code_challenge_method " ++ env.quote req.codeChallengeMethod ++
      ": only S256 is allowed"))
  let resolved ← resolveMint req.resource
  let uri := (resolved.map Resource.uri).getD ""
  let scope ← requestedScope env req c uri
  Prog.ofExcept (checkCeiling c scope)
  validateScopes env scope uri
  let covered ← consentCovers req.userID c.id scope resolved
  let now ← timeNow
  let id ← generateRandomString env ctx
  let sess := sessionOf req c id scope uri now
  wrapErr "create session" (store (SessionStore.create ctx sess (resolved.map Resource.id)))
  pure { session := sess, loginRequired := req.userID == "", consentRequired := !covered }

/-- `AuthorizeService.StartAuthorization`, with the registration of unknown clients. -/
def startAuthorization (ctx : ReqID) (req : AuthorizeRequest) : Svc AuthorizeResult := do
  failIf (req.responseType != "code") (.wrapped .invalidGrant "response_type must be 'code'")
  let c ← lookupClient register req.clientID
  startFor env ctx req c

/-- `AuthorizeService.CompleteAuthorization`. -/
def completeAuthorization (ctx : ReqID) (sessionID : String) : Svc CompleteAuthResult := do
  let sess ← wrapErr "get session" (fetch (SessionStore.getByID sessionID))
  let now ← timeNow
  failIf (now > sess.expiresAt) (.sentinel .sessionExpired)
  let code ← generateRandomString env ctx
  wrapErr "update code hash"
    (store (SessionStore.updateCodeHashAndScope sessionID (env.hashSHA256 code) sess.scope))
  pure { redirectURI := sess.redirectURI, code := code, state := sess.state }

/-- `handleAuthorize`: the code, unless the user has to log in or to consent first. Here unknown
clients are not registered. -/
def handleAuthorize (ctx : ReqID) (req : AuthorizeRequest) :
    Svc (Option CompleteAuthResult) := do
  let result ← startAuthorization env (Prog.fail (.sentinel .invalidClient)) ctx req
  if result.loginRequired || result.consentRequired then pure none
  else do
    let completed ← completeAuthorization env ctx result.session.id
    pure (some completed)

end AuthorizeService

namespace ConsentService

def grantOf (id userID clientID resourceID : String) (scopes : List String) : ConsentGrant where
  id := id
  userID := userID
  clientID := clientID
  resourceID := resourceID
  scopes := scopes
  revokedAt := none

/-- Write the grant for the session's resource, if it has one. -/
def persistGrant (ctx : ReqID) (userID clientID : String) (scopes : List String) :
    Option Resource → Call Unit
  | none => fun w => (.ok (), w)
  | some r => fun w =>
    Call.wrapErr "upsert consent grant"
      (ConsentGrantStore.upsert
        (grantOf (env.random ctx (w.drawn ctx)) userID clientID r.id scopes))
      (w.draw ctx)

theorem persistGrant_ok {env : Env} {ctx : ReqID} {userID clientID : String} {scopes : List String}
    {resolved : Option Resource} {w w' : World}
    (h : persistGrant env ctx userID clientID scopes resolved w = (.ok (), w')) :
    (resolved = none ∧ w' = w) ∨ ∃ r, resolved = some r ∧ ConsentGrantStore.upsert
      (grantOf (env.random ctx (w.drawn ctx)) userID clientID r.id scopes) (w.draw ctx) =
        (.ok (), w') := by
  cases resolved with
  | none => exact .inl ⟨rfl, (Prod.mk.inj h).2.symm⟩
  | some r => exact .inr ⟨r, rfl, Call.wrapErr_ok h⟩

/-- The transaction of a consent submission: the grant, and the code with the narrowed scope. -/
def persistAndCode (ctx : ReqID) (req : GrantConsentRequest) (clientID : String)
    (resolved : Option Resource) (codeHash scope : String) : Call Unit :=
  Call.andThen (persistGrant env ctx req.userID clientID (Text.fields scope) resolved) fun _ =>
    Call.andThen (Call.wrapErr "update code hash and scope"
      (SessionStore.updateCodeHashAndScope req.sessionID codeHash scope)) fun _ w =>
        (.ok (), w.note ctx (.approved req.userID (Text.fields scope)))

/-- `ConsentService.GrantConsent`. -/
def grantConsent (ctx : ReqID) (req : GrantConsentRequest) : Svc CompleteAuthResult := do
  let sess ← wrapErr "get session" (fetch (SessionStore.getByID req.sessionID))
  let now ← timeNow
  failIf (now > sess.expiresAt) (.sentinel .sessionExpired)
  failIf (req.userID == "" || (sess.userID != "" && sess.userID != req.userID))
    (.sentinel .invalidGrant)
  let approved := ScopeSet.ofNames req.approvedScopes
  failIf approved.isEmpty (.sentinel .invalidScope)
  failIf (!approved.isSubset (ScopeSet.parse sess.scope)) (.sentinel .invalidScope)
  let resolved ← resolveMint sess.resource
  let code ← generateRandomString env ctx
  withTransaction (persistAndCode env ctx req sess.clientID resolved (env.hashSHA256 code)
    approved.toString)
  pure { redirectURI := sess.redirectURI, code := code, state := sess.state }

/-- The session is there and not the user's. -/
def isForeign (userID : String) : Except Err AuthSession → Bool
  | .ok sess => userID == "" || (sess.userID != "" && sess.userID != userID)
  | .error _ => false

/-- `ConsentService.DenyConsent`. What it returns is only logged. -/
def denyConsent (sessionID userID : String) : Svc Unit := do
  let sess ← (fetch (SessionStore.getByID sessionID)).attempt
  failIf (isForeign userID sess) (.sentinel .invalidGrant)
  let _ ← (store (SessionStore.delete sessionID)).attempt
  pure ()

end ConsentService

end AuthServer
