import AuthServer.Service.Broker

/-!
# The protocol adapters

`Vend` of the adapters `oauth` and `service_account` in `internal/adapters/brokerproto`. Both
translate the requested scopes a second time, from the resource's catalog and not from what the
issuer checked, and both take a catalog entry without an upstream name to be in the upstream's
format already.

Parsing a provider's configuration and a credential, resolving secrets, signing and the exchange
with the upstream itself are parameters (`Port`). -/

namespace AuthServer.BrokerProtocol

/-- `mapScopes` of either adapter: in order, with repetitions, and without unregistered names. -/
def mapScopes (r : Resource) (requested : List String) : List String :=
  requested.filterMap fun fine =>
    (BrokerIssuer.upstreamOf r fine).map fun upstream => if upstream == "" then fine else upstream

/-- The part of the oauth adapter's `configData` that a vend reads. -/
structure OAuthConfig where
  clientID : String
  clientSecretRef : String
  tokenURL : String
  deriving DecidableEq, Repr

/-- The service-account adapter's `configData`. -/
structure ServiceAccountConfig where
  tokenURL : String
  saEmail : String
  saKeyRef : String
  tokenTTLSeconds : Int
  algorithm : String
  deriving DecidableEq, Repr

/-- `assertionClaims`, with the scopes before they are joined. -/
structure AssertionClaims where
  issuer : String
  subject : String
  audience : String
  issuedAt : Int
  expiry : Int
  jti : String
  scopes : List String
  deriving DecidableEq, Repr

/-- What an adapter sends to the upstream's token endpoint, with the scopes before they are joined.
-/
inductive TokenRequest
  | refreshToken (url clientID clientSecret refreshToken : String) (scopes : List String)
  | jwtBearer (url assertion : String) (claims : AssertionClaims)
  deriving DecidableEq, Repr

namespace TokenRequest

/-- The scope strings the adapter puts into the request. -/
def scopes : TokenRequest → List String
  | refreshToken _ _ _ _ scopes => scopes
  | jwtBearer _ _ claims => claims.scopes

def form : TokenRequest → List (String × String)
  | refreshToken _ clientID clientSecret refresh scopes =>
    [("grant_type", "refresh_token"), ("client_id", clientID), ("client_secret", clientSecret),
      ("refresh_token", refresh)] ++
      if scopes.isEmpty then [] else [("scope", Text.join scopes)]
  | jwtBearer _ assertion _ =>
    [("grant_type", "urn:ietf:params:oauth:grant-type:jwt-bearer"), ("assertion", assertion)]

/-- The scope as the upstream reads it: the form's parameter, or the claim of the assertion, which
is left out when empty. -/
def scope : TokenRequest → Option String
  | rq@(refreshToken ..) => rq.form.lookup "scope"
  | jwtBearer _ _ claims =>
    if Text.join claims.scopes == "" then none else some (Text.join claims.scopes)

end TokenRequest

structure TokenResponse where
  accessToken : String
  refreshToken : String
  expiresIn : Int
  scope : String
  deriving DecidableEq, Repr

/-- What the adapters call: parsing, secrets, signing and the upstream. -/
structure Port where
  /-- The oauth adapter's `parseConfigData`. -/
  oauthConfig : BrokerProvider → Except Err OAuthConfig
  /-- The oauth adapter's `parseCredential`: the refresh token. -/
  oauthCredential : String → Except Err String
  /-- The oauth adapter's `marshalCredential`. -/
  marshalCredential : String → String
  /-- The service-account adapter's `parseConfigData`. -/
  serviceAccountConfig : BrokerProvider → Except Err ServiceAccountConfig
  /-- The service-account adapter's `parseCredential`: the subject to impersonate. -/
  serviceAccountCredential : String → Except Err String
  /-- `resolveSecret` and `resolveSAKey`. -/
  resolveSecret : BrokerProvider → String → Except Err String
  /-- The identifier of the assertion made at a time. -/
  assertionID : Time → String
  /-- `parsePrivateKey` and `signAssertion`: the algorithm, the key and the claims. -/
  signAssertion : String → String → AssertionClaims → Except Err String
  /-- `postToken`. -/
  post : BrokerProvider → TokenRequest → Except Err TokenResponse

/-- The adapters that send scopes upstream. -/
inductive Adapter
  | oauth
  | serviceAccount
  deriving DecidableEq, Repr

namespace Adapter

def name : Adapter → String
  | oauth => "oauth"
  | serviceAccount => "service_account"

/-- `Vend` up to the call of the upstream: the request it makes there. -/
def vendRequest (port : Port) (p : BrokerProvider) (r : Resource) (credential : String)
    (requestedScopes : List String) (now : Time) : Adapter → Except Err TokenRequest
  | oauth => do
    let cfg ← port.oauthConfig p
    let refresh ← port.oauthCredential credential
    let secret ← port.resolveSecret p cfg.clientSecretRef
    pure (.refreshToken cfg.tokenURL cfg.clientID secret refresh (mapScopes r requestedScopes))
  | serviceAccount => do
    let cfg ← port.serviceAccountConfig p
    let sub ← port.serviceAccountCredential credential
    let key ← port.resolveSecret p cfg.saKeyRef
    let claims : AssertionClaims :=
      { issuer := cfg.saEmail, subject := sub, audience := cfg.tokenURL, issuedAt := unix now
        expiry := unix (now + cfg.tokenTTLSeconds * 1000000000), jti := port.assertionID now
        scopes := mapScopes r requestedScopes }
    let assertion ← port.signAssertion cfg.algorithm key claims
    pure (.jwtBearer cfg.tokenURL assertion claims)

def scopesCover (have' want : List String) : Bool :=
  want.all have'.contains

/-- What `Vend` makes of the upstream's answer. Only the oauth adapter looks at the scopes that came
back, and only it may have been given another refresh token. -/
def readResponse (env : Env) (port : Port) (resp : TokenResponse) : TokenRequest → Except Err Vended
  | .refreshToken _ _ _ refresh scopes =>
    if resp.accessToken == "" then
      .error (.fault "oauth upstream response missing access_token")
    else if !scopes.isEmpty && resp.scope != "" && !scopesCover (Text.fields resp.scope) scopes then
      .error (.wrapped .upstreamScopeDowngrade
        ("granted=" ++ env.quote resp.scope ++ " requested=" ++ env.quote (Text.join scopes)))
    else
      .ok
        { accessToken := resp.accessToken, expiresIn := resp.expiresIn
          updatedCredential :=
            if resp.refreshToken != "" && resp.refreshToken != refresh then
              some (port.marshalCredential resp.refreshToken)
            else none }
  | .jwtBearer .. =>
    if resp.accessToken == "" then
      .error (.fault "service_account upstream response missing access_token")
    else
      .ok { accessToken := resp.accessToken, expiresIn := resp.expiresIn
            updatedCredential := none }

def vend (env : Env) (port : Port) (a : Adapter) (p : BrokerProvider) (r : Resource)
    (credential : String)
    (requestedScopes : List String) (now : Time) : Except Err Vended := do
  let rq ← a.vendRequest port p r credential requestedScopes now
  let resp ← port.post p rq
  readResponse env port resp rq

variable {env : Env} {port : Port} {a : Adapter} {p : BrokerProvider} {r : Resource}
    {credential : String}
  {requestedScopes : List String} {now : Time}

theorem scopes_of_vendRequest {rq : TokenRequest}
    (h : a.vendRequest port p r credential requestedScopes now = .ok rq) :
    rq.scopes = mapScopes r requestedScopes := by
  cases a with
  | oauth =>
    simp only [vendRequest, bind, Except.bind, pure, Except.pure] at h
    repeat' split at h
    all_goals cases h
    rfl
  | serviceAccount =>
    simp only [vendRequest, bind, Except.bind, pure, Except.pure] at h
    repeat' split at h
    all_goals cases h
    rfl

end Adapter

theorem TokenRequest.scope_eq {rq : TokenRequest} (hne : rq.scopes ≠ [])
    (hnames : ∀ s ∈ rq.scopes, s ≠ "") : rq.scope = some (Text.join rq.scopes) := by
  cases rq with
  | refreshToken url clientID clientSecret refresh scopes =>
    have hsome : scopes.isEmpty = false := by simpa [TokenRequest.scopes] using hne
    simp [scope, form, hsome, List.lookup_cons, TokenRequest.scopes]
  | jwtBearer url assertion claims =>
    have hjoin : Text.join claims.scopes ≠ "" := Text.join_ne_empty hne hnames
    simp [scope, hjoin, TokenRequest.scopes]

end AuthServer.BrokerProtocol
