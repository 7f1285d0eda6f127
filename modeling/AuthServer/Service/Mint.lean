import AuthServer.Crypto.DPoP
import AuthServer.Domain.Delegation
import AuthServer.Store.Tokens

/-!
# Minting access tokens

`MintIssuer.Issue` and what every grant shares around it: client authentication primitives, DPoP
proof validation, agent identity, token verification and the moment a token leaves the server.

An access token is represented by its claims. `signAccessToken` refuses claims that lack a required
field; `verifyAccessToken` accepts the tokens the server has released, subject to the time and
issuer checks. -/

namespace AuthServer

open Interleave

/-! ### Signing and verifying -/

def validateAccessTokenClaims (c : AccessTokenClaims) : Except Err Unit :=
  if c.issuer == "" then .error (.fault "iss claim is required")
  else if c.subject == "" then .error (.fault "sub claim is required")
  else if c.audience.headD "" == "" then .error (.fault "aud claim is required")
  else if c.clientID == "" then .error (.fault "client_id claim is required")
  else if c.jti == "" then .error (.fault "jti claim is required")
  else if c.expiry == 0 then .error (.fault "exp claim is required")
  else if c.issuedAt == 0 then .error (.fault "iat claim is required")
  else .ok ()

/-- `crypto.SignAccessTokenContext`: the signed token carries the claims it was given. -/
def signAccessToken (c : AccessTokenClaims) : Except Err AccessTokenClaims :=
  (validateAccessTokenClaims c).map fun _ => c

/-- The clock skew `crypto.VerifyAccessToken` tolerates, in seconds. -/
def clockSkew : Int := 30

variable (env : Env)

/-- `crypto.VerifyAccessTokenWithIssuer`: a signed token, within its validity, of this issuer. -/
def verifyAccessToken (c : AccessTokenClaims) (w : World) : Except Err AccessTokenClaims :=
  if !w.released.contains c then .error (.fault "verify claims")
  else if c.expiry == 0 then .error (.fault "missing exp claim")
  else if unix w.clock > c.expiry + clockSkew then .error (.fault "token expired")
  else if c.issuedAt == 0 then .error (.fault "missing iat claim")
  else if c.notBefore != 0 && unix w.clock < c.notBefore - clockSkew then
    .error (.fault "token not yet valid")
  else if c.issuer != env.issuer then .error (.fault "invalid issuer")
  else .ok c

theorem signAccessToken_ok {c c' : AccessTokenClaims} (h : signAccessToken c = .ok c') :
    c' = c ∧ c.subject ≠ "" ∧ c.clientID ≠ "" ∧ c.jti ≠ "" := by
  unfold signAccessToken validateAccessTokenClaims at h
  repeat' split at h
  all_goals simp_all [Except.map]

theorem verifyAccessToken_ok {env : Env} {c c' : AccessTokenClaims} {w : World}
    (h : verifyAccessToken env c w = .ok c') :
    c' = c ∧ c ∈ w.released ∧ c.issuer = env.issuer ∧ unix w.clock ≤ c.expiry + clockSkew := by
  unfold verifyAccessToken at h
  repeat' split at h
  all_goals simp_all

/-- Hand a token to the caller. -/
def release (ctx : ReqID) (c : AccessTokenClaims) (e : Event) : Svc Unit :=
  Prog.step fun w => ((), { w with released := c :: w.released }.note ctx e)

/-! ### Agent identity -/

structure AgentIdentityClaims where
  agentID : String
  agentChain : List String
  deriving DecidableEq, Repr

/-- `buildAgentChain`: the actors from the innermost hop outward. -/
def buildAgentChain (act : Option Json.Object) : List String :=
  ((actClaimFromMap act).map Hop.sub).reverse

/-- `AgentIdentityService.attachClaimsForClient`: nothing for a client that is not an agent; the
chain is cut at its maximal length. -/
def agentClaimsOf (c : Client) (act : Option Json.Object) : Option AgentIdentityClaims :=
  if c.isAgent then some ⟨c.id, (buildAgentChain act).take Issuance.maxAgentChainLength⟩
  else none

def extractAgentIdentityClaimsForClient (c : Client) (act : Option Json.Object) :
    Option AgentIdentityClaims :=
  if env.agentIdentity then agentClaimsOf c act else none

/-- `extractAgentIdentityClaims`: the same after looking the client up. -/
def extractAgentIdentityClaims (clientID : String) (act : Option Json.Object) :
    Svc (Option AgentIdentityClaims) :=
  if env.agentIdentity then do
    let c ← wrapErr "attach agent claims" (fetch (ClientStore.getByID clientID))
    pure (agentClaimsOf c act)
  else pure none

/-! ### DPoP -/

/-- The nonce check of `validateDPoP`, when the configuration asks for it. -/
def checkNonce (cfg : DPoPConfig) (result : DPoPProof) : Svc Unit :=
  if cfg.requireNonce then do
    let r ← (fetch (DPoPNonceStore.validateNonce result.nonce)).attempt
    failIf (!r.isOk) (.sentinel .dpopNonceMismatch)
  else pure ()

/-- `validateDPoP`, as the token service and the exchange service have it; a request without a proof
does not reach it. -/
def validateDPoP (req : DPoPRequest) : Svc String :=
  match env.dpop with
  | none => pure ""
  | some cfg =>
    if cfg.enabled then do
      let now ← timeNow
      let result ← Prog.ofExcept (env.validateProof req now)
      failIf (cfg.requireNonce && result.nonce == "") (.sentinel .dpopNonceRequired)
      checkNonce cfg result
      let now' ← timeNow
      store (DPoPNonceStore.consumeJTI result.jti (now' + int64 (cfg.proofLifetime * 2)))
      pure result.jkt
    else pure ""

/-- The thumbprint the issued token is bound to, empty when the request carries no proof. -/
def dpopThumbprint (req : DPoPRequest) : Svc String :=
  if req.proof == "" then pure "" else validateDPoP env req

/-! ### Issuing -/

/-- `services.IssueRequest`, for Mint. -/
structure IssueRequest where
  resource : Option Resource
  subjectUserID : String
  actorClientID : String
  scopes : List String
  agentIdentity : Option AgentIdentityClaims
  dpopJKT : String
  consentClientID : String
  parentJTI : String
  audience : List String
  act : Option Json.Object
  notBefore : Time
  expiry : Time
  deriving DecidableEq, Repr

/-- `services.IssueResponse`, for Mint. -/
structure IssueResponse where
  accessToken : AccessTokenClaims
  tokenType : String
  expiresIn : Int
  issuanceID : String
  deriving DecidableEq, Repr

namespace MintIssuer

def mintAudience (req : IssueRequest) (issuer : String) : List String :=
  if !req.audience.isEmpty then req.audience
  else match req.resource with
    | some r => if r.uri != "" then [r.uri] else [issuer]
    | none => [issuer]

/-- The claims of the token. -/
def claims (req : IssueRequest) (now : Time) (jti : String) : AccessTokenClaims where
  issuer := env.issuer
  subject := req.subjectUserID
  audience := mintAudience req env.issuer
  clientID := req.actorClientID
  scope := Text.join req.scopes
  jti := jti
  issuedAt := unix now
  expiry := unix req.expiry
  notBefore := unix req.notBefore
  cnf := if req.dpopJKT == "" then none else some req.dpopJKT
  act := req.act
  agentID := (req.agentIdentity.map AgentIdentityClaims.agentID).getD ""
  agentChain := (req.agentIdentity.map AgentIdentityClaims.agentChain).getD []

def issuanceRow (req : IssueRequest) (r : Resource) (now : Time) (jti : String) : Issuance where
  id := jti
  subjectUserID := req.subjectUserID
  clientID := req.actorClientID
  resourceID := r.id
  scopes := req.scopes
  backendKind := .mint
  revocable := true
  issuedAt := now
  expiresAt := req.expiry
  revokedAt := none
  jti := jti
  dpopJKT := req.dpopJKT
  agentID := (req.agentIdentity.map AgentIdentityClaims.agentID).getD ""
  agentChain :=
    ((req.agentIdentity.map AgentIdentityClaims.agentChain).getD []).take
      Issuance.maxAgentChainLength
  consentClientID := req.consentClientID
  parentJTI := req.parentJTI

/-- The issuance row of a token for a resource. -/
def recordIssuance (ctx : ReqID) (req : IssueRequest) (now : Time) (jti : String) : Svc Unit :=
  match req.resource with
  | some r =>
    wrapErr "insert mint issuance" (store (IssuanceStore.insert ctx (issuanceRow req r now jti)))
  | none => pure ()

/-- `MintIssuer.Issue`. -/
def issue (ctx : ReqID) (req : IssueRequest) : Svc IssueResponse := do
  let now ← timeNow
  let jti ← generateRandomString env ctx
  let signed ← Prog.ofExcept ((signAccessToken (claims env req now jti)).mapError
    (Err.wrap "sign access token"))
  recordIssuance ctx req now jti
  pure
    { accessToken := signed
      tokenType := if req.dpopJKT == "" then "Bearer" else "DPoP"
      expiresIn := seconds (req.expiry - now)
      issuanceID := jti }

end MintIssuer

end AuthServer
