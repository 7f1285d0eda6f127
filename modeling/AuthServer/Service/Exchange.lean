import AuthServer.Service.Broker
import AuthServer.Service.Token

/-!
# Token exchange

`TokenExchangeService.Exchange` of `internal/services/token_exchange.go`, with its four ways of
answering: the resource-less path, a Mint resource (directly or through a fronting link), a Broker
resource, and a Broker resource through a fronting link.

A presented token is its claims; a string that is not a token this server signed is any claims it
has not released. Metrics, logs and audit rows are left out.
-/

namespace AuthServer

open Interleave

/-- A request for an exchange, parsed. -/
structure TokenExchangeRequest where
  clientID : String
  clientSecret : String
  subjectToken : Option AccessTokenClaims
  subjectTokenType : String
  actorToken : Option AccessTokenClaims
  actorTokenType : String
  resource : String
  scope : String
  dpop : DPoPRequest
  deriving DecidableEq, Repr

/-- What an exchange hands out: a token of this server, or one of an upstream. -/
inductive IssuedToken
  | minted (claims : AccessTokenClaims)
  | vended (token : String)
  deriving DecidableEq, Repr

/-- The answer to an exchange. -/
structure TokenExchangeResponse where
  accessToken : IssuedToken
  issuedTokenType : String
  tokenType : String
  expiresIn : Int
  scope : String
  deriving DecidableEq, Repr

def tokenTypeAccessToken : String := "urn:ietf:params:oauth:token-type:access_token"

def tokenTypeJWT : String := "urn:ietf:params:oauth:token-type:jwt"

def grantTypeTokenExchange : String := "urn:ietf:params:oauth:grant-type:token-exchange"

def isValidSubjectTokenType (t : String) : Bool :=
  t == tokenTypeAccessToken || t == tokenTypeJWT

variable (env : Env)

namespace TokenExchange

/-! ### Who is asking, and with what -/

/-- `TokenExchangeService.authenticateClient`. -/
def authenticateClient := authenticateMachine

/-- The claims of a token that verifies. -/
def verifyToken (raw : AccessTokenClaims) : Svc AccessTokenClaims := do
  let verdict ← wrapErr "build JWKS" (fetch fun w => .ok (verifyAccessToken env raw w))
  Prog.ofExcept (verdict.mapError fun _ => .sentinel .invalidGrant)

/-- Is the client active? One that is gone counts as active. -/
def clientActive (id : String) : Svc Bool := do
  let r ← (fetch (ClientStore.getByID id)).attempt
  match r with
  | .ok c => pure c.isActive
  | .error e =>
    if e.is .invalidClient || e.is .clientNotFound then pure true
    else Prog.fail (e.wrap ("look up client " ++ env.quote id))

/-- The first half of `checkLiveness`: the issuing client. -/
def checkIssuingClient (claims : AccessTokenClaims) : Svc Unit :=
  if claims.clientID == "" then pure ()
  else do
    let active ← clientActive env claims.clientID
    failIf (!active) (.sentinel .invalidGrant)

/-- The second half of `checkLiveness`: the subject, a user or else a client. -/
def checkSubjectAlive (claims : AccessTokenClaims) : Svc Unit :=
  if claims.subject == "" || claims.subject == claims.clientID then pure ()
  else do
    let r ← (fetch (UserStore.getByID claims.subject)).attempt
    match r with
    | .ok u => failIf (!u.isActive) (.sentinel .invalidGrant)
    | .error e =>
      if e.is .userNotFound then do
        let active ← clientActive env claims.subject
        failIf (!active) (.sentinel .invalidGrant)
      else Prog.fail (e.wrap "look up subject user")

/-- Issuer and subject are alive. -/
def checkLiveness (claims : AccessTokenClaims) : Svc Unit := do
  checkIssuingClient env claims
  checkSubjectAlive env claims

/-- The machine-token and denylist part of `checkRevocation`; both tolerate a store that does not
answer. -/
def checkLegacyRevocation (claims : AccessTokenClaims) : Svc Unit :=
  if claims.subject == claims.clientID then do
    let r ← (fetch (MachineTokenStore.getByJTI claims.jti)).attempt
    failIf (match r with | .ok (some mt) => mt.revoked | _ => false) (.sentinel .invalidGrant)
  else do
    let r ← (fetch (RevocationStore.isRevoked claims.jti)).attempt
    failIf (match r with | .ok revoked => revoked | _ => false) (.sentinel .invalidGrant)

/-- The token is not revoked. -/
def checkRevocation (claims : AccessTokenClaims) : Svc Unit :=
  if claims.jti == "" then pure ()
  else do
    let iss ← wrapErr "look up subject token issuance" (fetch (IssuanceStore.getByJTI claims.jti))
    failIf (iss.any Issuance.isRevoked) (.sentinel .invalidGrant)
    checkLegacyRevocation claims

variable (req : TokenExchangeRequest)

/-- The actor token, if there is one. -/
def verifyActor : Svc (Option AccessTokenClaims) :=
  match req.actorToken with
  | none => pure none
  | some raw => do
    failIf (req.actorTokenType != "" && !isValidSubjectTokenType req.actorTokenType)
      (.sentinel .invalidGrant)
    let ac ← verifyToken env raw
    checkLiveness env ac
    pure (some ac)

def actorHop (clientID : String) (isAgent : Bool) : Hop :=
  ⟨clientID, .entry "actor_type" (.str (if isAgent then "agent" else "service")) .empty⟩

/-- Refuse a delegation chain that is too deep. -/
def checkDepth (act : ActClaim) : Svc Unit :=
  failIf (!act.isEmpty && (act.length : Int) > env.tokenExchange.maxChainDepth)
    (.sentinel .tokenExchangeChainTooDeep)

/-! ### The resource-less path -/

/-- `TokenExchangeService.checkPolicy`: self-exchange, where it is allowed. -/
def checkPolicy (clientID : String) (claims : AccessTokenClaims) : Except Err Unit :=
  if clientID == claims.clientID && env.tokenExchange.allowSelfExchange then .ok ()
  else .error (.sentinel .tokenExchangeNotAuthorized)

/-- The scopes of a resource-less exchange: those asked for, within the subject token's, or all of
the subject token's. -/
def legacyScopes (scope : String) (claims : AccessTokenClaims) : Except Err ScopeSet :=
  if scope == "" then .ok (ScopeSet.parse claims.scope)
  else if (ScopeSet.parse scope).isSubset (ScopeSet.parse claims.scope) then
    .ok (ScopeSet.parse scope)
  else .error (.sentinel .invalidScope)

variable (claims : AccessTokenClaims)

/-- The claims a resource-less exchange signs. -/
def legacyClaims (scopes : ScopeSet) (jti jkt : String) (act : Option Json.Object)
    (agent : Option AgentIdentityClaims) (now : Time) : AccessTokenClaims where
  issuer := env.issuer
  subject := claims.subject
  audience := if claims.audience.isEmpty then [env.issuer] else claims.audience
  clientID := req.clientID
  scope := scopes.toString
  jti := jti
  issuedAt := unix now
  expiry := unix (now + env.tokenExchange.tokenExpiry)
  notBefore := unix now
  cnf := if jkt == "" then claims.cnf else some jkt
  act := act
  agentID := (agent.map AgentIdentityClaims.agentID).getD ""
  agentChain := (agent.map AgentIdentityClaims.agentChain).getD []

def legacyRow (scopes : ScopeSet) (jti : String) (now : Time) : MachineToken where
  jti := jti
  clientID := req.clientID
  scopes := scopes
  resource := req.resource
  issuedAt := now
  expiresAt := now + env.tokenExchange.tokenExpiry
  revoked := false

/-- `Exchange` from its fifth step on, for a request without a resource. No issuance row is
written. -/
def exchangeLegacy (ctx : ReqID) (req : TokenExchangeRequest) (actingClient : Client)
    (claims : AccessTokenClaims) : Svc TokenExchangeResponse := do
  let actor ← verifyActor env req
  let scopes ← Prog.ofExcept (legacyScopes req.scope claims)
  Prog.ofExcept (checkPolicy env req.clientID claims)
  failIf scopes.isEmpty (.wrapped .invalidScope
    "scope omitted and the subject token carries no scope to inherit")
  let existing := sanitizeNonIdentityClaims (actClaimFromMap claims.act)
  let act := if actor.isSome then actorHop req.clientID actingClient.isAgent :: existing
    else existing
  checkDepth env act
  let jkt ← dpopThumbprint env req.dpop
  let now ← timeNow
  let jti ← generateRandomString env ctx
  let agent ← extractAgentIdentityClaims env req.clientID (actClaimToMap act)
  let signed ← Prog.ofExcept
    ((signAccessToken
      (legacyClaims env req claims scopes jti jkt (actClaimToMap act) agent now)).mapError
      (Err.wrap "sign access token"))
  wrapErr "save exchanged token" (store (MachineTokenStore.save (legacyRow env req scopes jti now)))
  release ctx signed (.exchanged claims.jti jti .legacy)
  pure
    { accessToken := .minted signed, issuedTokenType := tokenTypeAccessToken
      tokenType := if signed.cnf.isSome then "DPoP" else "Bearer"
      expiresIn := seconds env.tokenExchange.tokenExpiry, scope := scopes.toString }

/-! ### Fronting -/

/-- `TokenExchangeService.resolveSourceForFronting`: the first Mint resource the audience names. -/
def resolveSourceForFronting (env : Env) : List String → Svc (Option Resource)
  | [] => pure none
  | aud :: rest =>
    if aud == "" || aud == env.issuer then resolveSourceForFronting env rest
    else do
      let r ← (fetch (ResourceRegistry.resolve aud)).attempt
      match r with
      | .ok src => if src.isMint then pure (some src) else resolveSourceForFronting env rest
      | .error _ => resolveSourceForFronting env rest

/-- A fronting link with its source. -/
structure Fronting where
  source : Resource
  link : FrontingLink
  deriving DecidableEq, Repr

variable (target : Resource)

/-- The link that the subject token fronts with. -/
def mintFronting : Option Resource → Svc (Option Fronting)
  | none => pure none
  | some source =>
    if source.slug == target.slug then pure none
    else do
      let r ← (fetch (FrontingLinkStore.get source.slug target.slug)).attempt
      match r with
      | .ok link => pure (if target.isMint then some ⟨source, link⟩ else none)
      | .error e =>
        if e.is .frontingLinkNotFound then pure none else Prog.fail (e.wrap "fronting lookup")

def Fronting.pair (f : Fronting) (target : Resource) : String :=
  "(source=" ++ f.source.slug ++ " target=" ++ target.slug ++ ")"

/-- `[]string` as the verb `%v` prints it. -/
def formatList (l : List String) : String :=
  "[" ++ Text.join l ++ "]"

/-- The gates of a fronted Mint exchange. Returns the scope parameter, defaulted when it was blank:
the default is *joined* here and split again when the token is issued. -/
def frontedScope (f : Fronting) : Except Err String :=
  if !frontedCallerAuthorized f.source target req.clientID then
    .error (errFrontedCallerNotAuthorized env f.source target req.clientID)
  else
    let subjectScopes := ScopeSet.parse claims.scope
    let named := Text.fields req.scope
    let targets :=
      if named.isEmpty then frontedMintTargetsFor f.link.scopeMap subjectScopes else named
    if targets.isEmpty then
      .error (.wrapped .invalidScope
        ("subject_token holds no source scope mapped by fronting link " ++ f.pair target))
    else
      let required := requiredSourceScopesForTargets f.link.scopeMap targets
      if !required.2.isEmpty then
        .error (.wrapped .invalidScope ("target scope(s) " ++ formatList required.2 ++
          " not present in fronting link scope_map " ++ f.pair target))
      else
        match required.1.find? fun src => !subjectScopes.contains src with
        | some src => .error (.wrapped .invalidScope ("subject_token missing source scope " ++
            env.quote src ++ " required by fronting link " ++ f.pair target))
        | none => .ok (if named.isEmpty then Text.join targets else req.scope)

/-! ### A Mint resource -/

/-- Self-exchange: the caller presents a token issued to itself, and that is allowed. -/
def isSelfExchange : Bool :=
  env.tokenExchange.allowSelfExchange && req.clientID == claims.clientID

/-- The caller of a cross-client exchange must be allowed by the resource's policy, or act as it. -/
def crossClientAllowed : Bool :=
  req.clientID == claims.clientID ||
    target.policy.exchangeAllowedClientIDs.contains req.clientID ||
    target.policy.runtimeClientIDs.contains req.clientID

/-- The refusal for lack of a live grant. -/
def consentMissing : Err :=
  .consentRequired target.slug "" target.slug .consentMissing [] ""

/-- The scope asked for, or the default. -/
def defaultedScope (grant : Option ConsentGrant)
    (claims : AccessTokenClaims) (target : Resource) (branch : Authority) : Except Err String :=
  if (Text.fields req.scope).isEmpty then
    applyDirectMintDefaultScopes env grant claims target branch
  else .ok req.scope

/-- The consent gate: the live grant of the subject and its client on the target covers the scopes.
Coverage is checked after the default was joined and split again. -/
def consentGate : Svc String := do
  failIf (!crossClientAllowed req claims target) (.sentinel .tokenExchangeNotAuthorized)
  let found ← wrapErr "look up consent grant"
    (fetch (ConsentGrantStore.get claims.subject claims.clientID target.id))
  let grant ← Prog.ofExcept (found.elim (.error (consentMissing target)) .ok)
  let scope ← Prog.ofExcept (defaultedScope env req (some grant) claims target .consentGrant)
  let missing := scopesNotConsented grant (Text.fields scope)
  failIf (!missing.isEmpty)
    (.consentRequired target.slug "" target.slug .scopeInsufficient missing "")
  pure scope

/-- The scope gates of a Mint exchange, by branch. Returns the scope parameter to issue for. -/
def authorizeScope : Option Fronting → Svc String
  | some f => Prog.ofExcept (frontedScope env req claims target f)
  | none => do
    Prog.ofExcept (enforceSubjectScopeCeiling req.scope claims)
    if isSelfExchange env req claims then
      Prog.ofExcept (defaultedScope env req none claims target .selfExchange)
    else consentGate env req claims target

/-- How the exchange was authorised, for the history variable. -/
def gateOf : Option Fronting → Gate
  | some f => .fronted f.source.slug target.slug
  | none =>
    if isSelfExchange env req claims then .selfExchange
    else .consent claims.subject claims.clientID target.id

/-- The actors of the new token. -/
def mintAct (actor : Option AccessTokenClaims) : Option Fronting → Svc ActClaim
  | some f =>
    let existing := sanitizeNonIdentityClaims (actClaimFromMap claims.act)
    let inner := if existing.isEmpty then
        [⟨frontedInnerActor claims.clientID f.source.slug req.clientID, .empty⟩]
      else existing
    pure (⟨f.source.slug, .empty⟩ :: inner)
  | none =>
    if actor.isSome then do
      let c ← wrapErr "look up acting client" (fetch (ClientStore.getByID req.clientID))
      pure (actorHop req.clientID c.isAgent ::
        sanitizeNonIdentityClaims (actClaimFromMap claims.act))
    else pure (sanitizeNonIdentityClaims (actClaimFromMap claims.act))

/-- The key a token issued from this subject token is bound to. -/
def exchangeThumbprint : Svc String := do
  let jkt ← dpopThumbprint env req.dpop
  pure (if jkt == "" then claims.cnf.getD "" else jkt)

/-- The issue request of a Mint exchange. A fronted exchange is issued to the source, and records no
consenting client. -/
def mintRequest (fronting : Option Fronting) (scope jkt : String) (act : Option Json.Object)
    (agent : Option AgentIdentityClaims) (now : Time) : IssueRequest where
  resource := some target
  subjectUserID := claims.subject
  actorClientID := (fronting.map fun f => f.source.slug).getD req.clientID
  scopes := Text.fields scope
  agentIdentity := agent
  dpopJKT := jkt
  consentClientID := if fronting.isSome then "" else claims.clientID
  parentJTI := claims.jti
  audience := [target.uri]
  act := act
  notBefore := now
  expiry := now + env.tokenExchange.tokenExpiry

/-- The subject token, looked at again. -/
def recheckSubject : Svc (Option Err) :=
  if claims.jti == "" then pure none
  else do
    let r ← (fetch (IssuanceStore.getByJTI claims.jti)).attempt
    pure (match r with
      | .ok iss => if iss.any Issuance.isRevoked then some (.sentinel .invalidGrant) else none
      | .error e => some (e.wrap "re-check subject token issuance after mint"))

/-- The consent grant, looked at again. -/
def recheckGrant : Svc (Option Err) := do
  let r ← (fetch (ConsentGrantStore.get claims.subject claims.clientID target.id)).attempt
  pure (match r with
    | .ok (some _) => none
    | .ok none => some (consentMissing target)
    | .error e => some (e.wrap "re-check consent grant after mint"))

/-- Both re-checks, the second only for a consent-gated exchange that passed the first. -/
def recheck (consentGated : Bool) : Svc (Option Err) := do
  let r ← recheckSubject claims
  match r with
  | some e => pure (some e)
  | none => if consentGated then recheckGrant claims target else pure none

/-- `TokenExchangeService.refuseIfRevokedSinceCheck`: what was revoked while the token was being
minted takes the new token with it. -/
def refuseIfRevokedSinceCheck (consentGated : Bool) (issuanceID : String) : Svc Unit := do
  let refusal ← recheck claims target consentGated
  match refusal with
  | none => pure ()
  | some e => do
    let _ ← (store (IssuanceStore.revoke issuanceID)).attempt
    Prog.fail e

variable (ctx : ReqID)

/-- The end of `dispatchMint`: issue, look again, and hand the token out. -/
def mintAndRelease (claims : AccessTokenClaims) (target : Resource)
    (consentGated : Bool) (gate : Gate) (scope : String) (request : IssueRequest) :
    Svc TokenExchangeResponse := do
  let resp ← MintIssuer.issue env ctx request
  refuseIfRevokedSinceCheck claims target consentGated resp.issuanceID
  release ctx resp.accessToken (.exchanged claims.jti resp.issuanceID gate)
  pure
    { accessToken := .minted resp.accessToken, issuedTokenType := tokenTypeAccessToken
      tokenType := resp.tokenType, expiresIn := resp.expiresIn, scope := scope }

/-- An exchange for a Mint resource. -/
def dispatchMint (req : TokenExchangeRequest) (claims : AccessTokenClaims)
    (target : Resource) : Svc TokenExchangeResponse := do
  failIf (!operatorAllowsClient target.policy.exchangeAllowedClientIDs req.clientID)
    (.sentinel .tokenExchangeNotAuthorized)
  let source ← resolveSourceForFronting env claims.audience
  let fronting ← mintFronting target source
  let scope ← authorizeScope env req claims target fronting
  let actor ← verifyActor env req
  let act ← mintAct req claims actor fronting
  checkDepth env act
  let jkt ← exchangeThumbprint env req claims
  let agent ← extractAgentIdentityClaims env req.clientID (actClaimToMap act)
  let now ← timeNow
  mintAndRelease env ctx claims target (fronting.isNone && !isSelfExchange env req claims)
    (gateOf env req claims target fronting) scope
    (mintRequest env req claims target fronting scope jkt (actClaimToMap act) agent now)

/-! ### A Broker resource -/

def getWithProvider (resourceID : String) : Svc (Option BrokerProvider) := do
  let r ← fetch (ResourceStore.getByID resourceID)
  if r.isBroker then do
    let p ← wrapErr ("broker provider " ++ env.quote r.brokerProviderID ++ " for resource " ++
      env.quote r.id) (fetch (BrokerProviderStore.getByID r.brokerProviderID))
    pure (some p)
  else pure none

def providerOf : Svc BrokerProvider := do
  let found ← wrapErr "resolve broker provider" (getWithProvider env target.id)
  Prog.ofExcept (found.elim
    (.error (.fault ("broker resource " ++ env.quote target.slug ++ " has no provider row"))) .ok)

/-- `TokenExchangeService.resolveActorMCP`: the resource the caller acts as, by runtime policy or by
the retired convention that its slug is the client's identifier. -/
def resolveActorMCP (clientID : String) : Svc Resource := do
  let r ← (fetch (ResourceStore.findByRuntimeClientID clientID)).attempt
  match r with
  | .ok actor => pure actor
  | .error e =>
    if e.is .resourceNotFound then do
      let legacy ← (fetch (ResourceRegistry.resolve clientID)).attempt
      Prog.ofExcept (legacy.mapError fun _ => e)
    else Prog.fail e

/-- How a failed actor lookup is reported. -/
def actorLookupError (e : Err) : Err :=
  if e.is .resourceNotFound || e.is .ambiguousResource then .sentinel .tokenExchangeNotAuthorized
  else e.wrap "resolve actor MCP"

/-- The scopes to vend, defaulted when the parameter is blank. -/
def brokerScopes (target actor : Resource)
    (attestation : ConsentGrant) : Except Err (List String) :=
  let named := Text.fields req.scope
  let requested := if named.isEmpty then
      directBrokerDefaultScopes attestation target (ScopeSet.parse claims.scope)
    else named
  let missing := scopesNotConsented attestation requested
  if requested.isEmpty then
    .error (.consentRequired actor.slug "" actor.slug .scopeInsufficient [] "")
  else if !missing.isEmpty then
    .error (.consentRequired actor.slug "" actor.slug .scopeInsufficient missing "")
  else .ok requested

variable (provider : BrokerProvider)

def brokerIssueError (target : Resource) : Err → Err
  | .consentRequired _ _ _ cause missing denied =>
    .consentRequired provider.slug provider.slug target.slug cause missing denied
  | e => e

/-- A direct Broker exchange, once fronting is ruled out: the user must have consented to the agent
acting through the caller's own resource. -/
def dispatchDirectBroker (req : TokenExchangeRequest)
    (claims : AccessTokenClaims) (target : Resource) : Svc TokenExchangeResponse := do
  Prog.ofExcept (enforceSubjectScopeCeiling req.scope claims)
  let found ← (resolveActorMCP req.clientID).attempt
  let actor ← Prog.ofExcept (found.mapError actorLookupError)
  failIf (!actor.isMint) (.sentinel .tokenExchangeNotAuthorized)
  let grant ← wrapErr "look up agent attestation grant"
    (fetch (ConsentGrantStore.get claims.subject claims.clientID actor.id))
  let attestation ← Prog.ofExcept (grant.elim (.error (consentMissing actor)) .ok)
  let requested ← Prog.ofExcept (brokerScopes req claims target actor attestation)
  let provider ← providerOf env target
  let jkt ← dpopThumbprint env req.dpop
  let agent ← extractAgentIdentityClaims env req.clientID none
  let r ← (BrokerIssuer.issue env ctx
    { resource := target, provider := provider, subjectUserID := claims.subject
      actorClientID := req.clientID, scopes := requested, agentIdentity := agent
      dpopJKT := jkt }).attempt
  let resp ← Prog.ofExcept (r.mapError (brokerIssueError provider target))
  pure
    { accessToken := .vended resp.accessToken, issuedTokenType := tokenTypeAccessToken
      tokenType := "Bearer", expiresIn := resp.expiresIn
      scope := if (Text.fields req.scope).isEmpty then Text.join requested else req.scope }

def frontedBrokerDenied (target : Resource) (reason : String) : Err :=
  .consentRequired "" provider.slug target.slug .scopeInsufficient [] reason

def frontedBrokerScopes (target : Resource) (f : Fronting) : Except Err (List String) :=
  let subjectScopes := ScopeSet.parse claims.scope
  let named := Text.fields req.scope
  let requested := if named.isEmpty then frontedBrokerTargetsFor f.link.scopeMap subjectScopes
    else named
  let verdict := validateBrokerTargets f.link.scopeMap requested subjectScopes
  if requested.isEmpty then
    .error (frontedBrokerDenied provider target "subject_scope_insufficient")
  else if !verdict.2.1.isEmpty then .error (frontedBrokerDenied provider target "scope_unmapped")
  else if !verdict.2.2.isEmpty then
    .error (frontedBrokerDenied provider target "subject_scope_insufficient")
  else .ok verdict.1

/-- An exchange for a Broker resource behind a link. -/
def dispatchFrontedBroker (req : TokenExchangeRequest)
    (claims : AccessTokenClaims) (target : Resource) (f : Fronting) :
      Svc TokenExchangeResponse := do
  failIf (!frontedCallerAuthorized f.source target req.clientID)
    (errFrontedCallerNotAuthorized env f.source target req.clientID)
  let provider ← providerOf env target
  let translated ← Prog.ofExcept (frontedBrokerScopes req claims provider target f)
  let agent ← extractAgentIdentityClaims env req.clientID none
  let jkt ← exchangeThumbprint env req claims
  let resp ← BrokerIssuer.issue env ctx
    { resource := target, provider := provider, subjectUserID := claims.subject
      actorClientID := f.source.slug, scopes := translated, agentIdentity := agent, dpopJKT := jkt }
  pure
    { accessToken := .vended resp.accessToken, issuedTokenType := tokenTypeAccessToken
      tokenType := "Bearer", expiresIn := resp.expiresIn, scope := Text.join translated }

def dispatchBrokerFrom (req : TokenExchangeRequest)
    (claims : AccessTokenClaims) (target : Resource) :
    Option Resource → Svc TokenExchangeResponse
  | none => dispatchDirectBroker env ctx req claims target
  | some source =>
    if source.slug == target.slug then dispatchDirectBroker env ctx req claims target
    else do
      let r ← (fetch (FrontingLinkStore.get source.slug target.slug)).attempt
      match r with
      | .ok link => dispatchFrontedBroker env ctx req claims target ⟨source, link⟩
      | .error e => Prog.fail (if e.is .frontingLinkNotFound then
          .frontingLinkMissing source.slug target.slug else e.wrap "fronting lookup")

/-- An exchange for a Broker resource. -/
def dispatchBroker (req : TokenExchangeRequest)
    (claims : AccessTokenClaims) (target : Resource) : Svc TokenExchangeResponse := do
  failIf req.actorToken.isSome (.sentinel .brokerActorNotAllowed)
  failIf (!operatorAllowsClient target.policy.exchangeAllowedClientIDs req.clientID)
    (.sentinel .tokenExchangeNotAuthorized)
  let source ← resolveSourceForFronting env claims.audience
  dispatchBrokerFrom env ctx req claims target source

/-! ### Dispatch -/

def isFrontedBrokerExchange (audience : List String) (target : Resource) : Svc Bool :=
  if target.isBroker then do
    let source ← resolveSourceForFronting env audience
    match source with
    | none => pure false
    | some src =>
      if src.slug == target.slug then pure false
      else do
        let r ← (fetch (FrontingLinkStore.get src.slug target.slug)).attempt
        pure r.isOk
  else pure false

/-- The branch for the kind of the target. -/
def dispatch (req : TokenExchangeRequest) (claims : AccessTokenClaims)
    (target : Resource) : Svc TokenExchangeResponse :=
  match target.backendKind with
  | .mint => dispatchMint env ctx req claims target
  | .broker => dispatchBroker env ctx req claims target

/-- An exchange for a registered resource. -/
def handleViaRegistry (req : TokenExchangeRequest)
    (claims : AccessTokenClaims) (target : Resource) : Svc TokenExchangeResponse := do
  let frontedBroker ← isFrontedBrokerExchange env claims.audience target
  Prog.ofExcept (if frontedBroker then .ok () else validateAgainstCatalog env req.scope target)
  dispatch env ctx req claims target

/-- How a failed lookup of the named resource is reported. -/
def resolveError (e : Err) : Err :=
  if e.is .resourceNotFound || e.is .ambiguousResource then e else e.wrap "resolve resource"

/-- The part of `Exchange` after the subject token is accepted. -/
def exchangeFor (req : TokenExchangeRequest) (actingClient : Client)
    (claims : AccessTokenClaims) : Svc TokenExchangeResponse :=
  if req.resource == "" then exchangeLegacy env ctx req actingClient claims
  else do
    let r ← (fetch (ResourceRegistry.resolve req.resource)).attempt
    let target ← Prog.ofExcept (r.mapError resolveError)
    handleViaRegistry env ctx req claims target

/-- The subject token of a request, accepted: it verifies, is not revoked, and the parties behind it
are alive. -/
def acceptSubject (raw : AccessTokenClaims) : Svc AccessTokenClaims := do
  let claims ← verifyToken env raw
  failIf (claims.issuer != env.issuer) (.sentinel .invalidGrant)
  checkRevocation claims
  checkLiveness env claims
  pure claims

/-- `TokenExchangeService.Exchange`. -/
def exchange (req : TokenExchangeRequest) : Svc TokenExchangeResponse := do
  let raw ← Prog.ofExcept (req.subjectToken.elim
    (.error (.wrapped .invalidGrant "subject_token is required")) .ok)
  let actingClient ← authenticateClient env req.clientID req.clientSecret
  failIf (!hasGrantType actingClient.grantTypes grantTypeTokenExchange)
    (.sentinel .unauthorizedClient)
  failIf (!isValidSubjectTokenType req.subjectTokenType) (.sentinel .invalidGrant)
  let claims ← acceptSubject env raw
  exchangeFor env ctx req actingClient claims

end TokenExchange

end AuthServer
