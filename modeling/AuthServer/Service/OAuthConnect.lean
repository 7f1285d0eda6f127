import AuthServer.Service.BrokerProtocol
import AuthServer.Service.Connect

/-!
# Connecting by OAuth

`BuildConnectURL` and `HandleCallback` of the adapter `oauth` in
`internal/adapters/brokerproto/oauth`. The first asks the upstream for scopes, translated from the
resource's catalog, and the second records the scopes that the upstream names in its answer. A scope
that the upstream leaves out of the answer is recorded as no scope (`splitScopes`). -/

namespace AuthServer.BrokerProtocol

/-- The part of the adapter's `configData` that only the authorize URL is built from. -/
structure AuthorizeConfig where
  authorizeURL : String
  extraAuthParams : List (String × String)
  deriving DecidableEq, Repr

/-- The form that `HandleCallback` posts. -/
structure CodeExchange where
  url : String
  clientID : String
  clientSecret : String
  code : String
  codeVerifier : String
  redirectURI : String
  deriving DecidableEq, Repr

structure ConnectPort extends Port where
  authorizeConfig : BrokerProvider → AuthorizeConfig
  /-- The callback URL that the adapter was built with. -/
  callbackURL : String
  /-- `crypto.ComputeS256Challenge`. -/
  computeS256Challenge : String → String
  /-- `postToken`, for an authorization code. -/
  exchange : BrokerProvider → CodeExchange → Except Err TokenResponse

namespace OAuth

def reservedAuthParams : List String :=
  ["client_id", "client_secret", "response_type", "state", "code_challenge",
    "code_challenge_method", "redirect_uri", "scope"]

def askedScope (r : Resource) (requestedScopes : List String) : Option String :=
  if (mapScopes r requestedScopes).isEmpty then none
    else some (Text.join (mapScopes r requestedScopes))

def authorizeParams (cfg : AuthorizeConfig) (clientID challenge state callbackURL : String)
    (scope : Option String) :
    List (String × String) :=
  [("client_id", clientID), ("response_type", "code"), ("state", state),
    ("code_challenge", challenge), ("code_challenge_method", "S256")] ++
  (if callbackURL != "" then [("redirect_uri", callbackURL)] else []) ++
  (scope.toList.map fun scope => ("scope", scope)) ++
  cfg.extraAuthParams.filter fun p => !reservedAuthParams.contains p.1

def buildAuthorizeURL (env : Env) (cfg : AuthorizeConfig)
    (clientID challenge state callbackURL : String)
    (scope : Option String) : Except Err String :=
  if (env.urlParse cfg.authorizeURL).isNone then .error (.fault "oauth: invalid authorize_url")
  else
    let q := (authorizeParams cfg clientID challenge state callbackURL scope).map fun p =>
      (bytesOf p.1, bytesOf p.2)
    .ok (cfg.authorizeURL ++ (if cfg.authorizeURL.toList.contains '?' then "&" else "?") ++
      asciiText (Query.encode q))

/-- The callback URL of the call, or else that of the adapter. -/
def effectiveCallback (port : ConnectPort) (callbackURL : String) : String :=
  if callbackURL == "" then port.callbackURL else callbackURL

def buildConnectURL (env : Env) (port : ConnectPort) (p : BrokerProvider) (r : Resource)
    (userID returnURL callbackURL : String) (requestedScopes : List String)
      (verifier id : String) (now : Time) :
    Except Err (String × Option ConnectPendingState) := do
  let cfg ← port.oauthConfig p
  let url ← buildAuthorizeURL env (port.authorizeConfig p) cfg.clientID
    (port.computeS256Challenge verifier) id
    (effectiveCallback port callbackURL) (askedScope r requestedScopes)
  pure (url, some
    { id := id, userID := userID, providerID := p.id, resourceID := r.id, codeVerifier := verifier
      returnURL := returnURL, scopes := requestedScopes
      -- `connectStateTTL`: ten minutes
      expiresAt := now + 600 * 1000000000 })

def splitScopes (scope : String) : List String :=
  if scope == "" then [] else Text.fields scope

/-- `HandleCallback` up to the upstream's answer. -/
def exchangeCode (port : ConnectPort) (p : BrokerProvider) (code callbackURL : String)
    (pending : ConnectPendingState) :
    Except Err TokenResponse := do
  let cfg ← port.oauthConfig p
  let secret ← port.resolveSecret p cfg.clientSecretRef
  port.exchange p ⟨cfg.tokenURL, cfg.clientID, secret, code, pending.codeVerifier,
    effectiveCallback port callbackURL⟩

def handleCallback (port : ConnectPort) (p : BrokerProvider) (code callbackURL : String)
    (pending : ConnectPendingState) :
    Except Err (String × List String) := do
  let resp ← exchangeCode port p code callbackURL pending
  if resp.accessToken == "" then .error (.fault "oauth upstream response missing access_token")
  else if resp.refreshToken == "" then
    .error (.fault "oauth upstream did not return a refresh_token")
  else .ok (port.marshalCredential resp.refreshToken, splitScopes resp.scope)

/-- The connect service is wired with this adapter for the protocol `oauth`. -/
structure Wired (env : Env) (port : ConnectPort) (conf : Connector) : Prop where
  buildConnectURL : ∀ p r userID returnURL callbackURL requestedScopes verifier id now,
    p.protocol = "oauth" →
    conf.buildConnectURL p r userID returnURL callbackURL requestedScopes verifier id now =
      OAuth.buildConnectURL env port p r userID returnURL
        callbackURL requestedScopes verifier id now
  handleCallback : ∀ p res code callbackURL pending now, p.protocol = "oauth" →
    conf.handleCallback p res code callbackURL pending now =
      OAuth.handleCallback port p code callbackURL pending

theorem scopes_of_handleCallback {port : ConnectPort} {p : BrokerProvider}
    {code callbackURL : String}
    {pending : ConnectPendingState} {answer : String × List String}
    (h : handleCallback port p code callbackURL pending = .ok answer) :
    ∃ resp, exchangeCode port p code callbackURL pending = .ok resp ∧
      answer.2 = splitScopes resp.scope := by
  unfold handleCallback at h
  obtain ⟨resp, hresp, h⟩ := ok_of_bind h
  refine ⟨resp, hresp, ?_⟩
  split at h
  · cases h
  · split at h
    · cases h
    · rw [← Except.ok.inj h]

end OAuth

end AuthServer.BrokerProtocol
