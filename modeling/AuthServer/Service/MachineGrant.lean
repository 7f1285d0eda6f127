import AuthServer.Service.Token

/-!
# The `client_credentials` grant

A client obtains a token for itself. The two grants without a user in the loop, this one and
`jwt-bearer`, authenticate the client in the same way and issue in the same way: an issuance row
when a resource is named and resolves, and always a row in the table of machine tokens, by which the
token is introspected and revoked. -/

namespace AuthServer

open Interleave

variable (env : Env)

/-! ### Issuing -/

/-- What a machine grant has decided. -/
structure MachineIssue where
  subject : String
  clientID : String
  resource : String
  scopes : ScopeSet
  act : Option Json.Object
  dpopJKT : String
  now : Time
  expiry : Time
  jti : String
  deriving DecidableEq, Repr

/-- `input.ClientCredentialsResponse` and `input.JWTBearerResponse`. -/
structure MachineTokenResponse where
  accessToken : AccessTokenClaims
  tokenType : String
  expiresIn : Int
  scope : String
  deriving DecidableEq, Repr

namespace MachineIssue

def claims (m : MachineIssue) (agent : Option AgentIdentityClaims) : AccessTokenClaims where
  issuer := env.issuer
  subject := m.subject
  audience := if m.resource == "" then [env.issuer] else [m.resource]
  clientID := m.clientID
  scope := m.scopes.toString
  jti := m.jti
  issuedAt := unix m.now
  expiry := unix m.expiry
  notBefore := unix m.now
  cnf := if m.dpopJKT == "" then none else some m.dpopJKT
  act := m.act
  agentID := (agent.map AgentIdentityClaims.agentID).getD ""
  agentChain := (agent.map AgentIdentityClaims.agentChain).getD []

def issuanceRow (m : MachineIssue) (r : Resource)
    (agent : Option AgentIdentityClaims) : Issuance where
  id := m.jti
  subjectUserID := m.subject
  clientID := m.clientID
  resourceID := r.id
  scopes := m.scopes.slice
  backendKind := .mint
  revocable := true
  issuedAt := m.now
  expiresAt := m.expiry
  revokedAt := none
  jti := m.jti
  dpopJKT := m.dpopJKT
  agentID := (agent.map AgentIdentityClaims.agentID).getD ""
  agentChain :=
    ((agent.map AgentIdentityClaims.agentChain).getD []).take Issuance.maxAgentChainLength
  consentClientID := ""
  parentJTI := ""

def row (m : MachineIssue) : MachineToken where
  jti := m.jti
  clientID := m.clientID
  scopes := m.scopes
  resource := m.resource
  issuedAt := m.now
  expiresAt := m.expiry
  revoked := false

/-- Write the issuance row. A resource that does not resolve is passed over; an insert that fails
ends the grant. -/
def record (ctx : ReqID) (detail : String) (m : MachineIssue)
    (agent : Option AgentIdentityClaims) : Svc Unit :=
  if m.resource == "" then pure ()
  else do
    let r ← (fetch (ResourceRegistry.resolve m.resource)).attempt
    match r with
    | .ok res => wrapErr detail (store (IssuanceStore.insert ctx (m.issuanceRow res agent)))
    | .error _ => pure ()

/-- The last part of both grants: sign, record, and hand out. -/
def issue (ctx : ReqID) (detail : String) (lifetime : Time) (m : MachineIssue) :
    Svc MachineTokenResponse := do
  let agent ← extractAgentIdentityClaims env m.clientID m.act
  let signed ← Prog.ofExcept ((signAccessToken (m.claims env agent)).mapError
    (Err.wrap "sign access token"))
  m.record ctx detail agent
  wrapErr "save machine token" (store (MachineTokenStore.save m.row))
  release ctx signed (.granted m.jti)
  pure
    { accessToken := signed
      tokenType := if m.dpopJKT == "" then "Bearer" else "DPoP"
      expiresIn := seconds lifetime
      scope := m.scopes.toString }

end MachineIssue

/-! ### Client credentials -/

structure ClientCredentialsRequest where
  clientID : String
  clientSecret : String
  scope : String
  resource : String
  dpop : DPoPRequest
  deriving DecidableEq, Repr

namespace ClientCredentialsService

def authenticateClient := authenticateMachine

/-- `ClientCredentialsService.lookupResource`: the first listed resource with this URI. -/
def lookupResource (uri : String) : Svc (Option Resource) := do
  let resources ← wrapErr "list resources" (wrapErr "list resources"
    (fetch fun w => .ok (ResourceStore.list w)))
  pure (resources.find? (·.uri == uri))

/-- The catalog of the resource that the request names; a request may name none. -/
def resolveCatalog (resource : String) : Svc (Option ScopeSet) :=
  if resource == "" then pure none
  else do
    let info ← lookupResource resource
    match info with
    | some r => pure (some (ScopeSet.ofNames (r.scopes.map CatalogScope.name)))
    | none => Prog.fail (.wrapped .invalidTarget
        ("resource " ++ env.quote resource ++ " is not a registered resource"))

/-- `clientCredentialsScope`: `catalog` is that of the resource the request names, if it names one.
-/
def clientCredentialsScope (c : Client) (requested : String) (catalog : Option ScopeSet) :
    Except Err ScopeSet :=
  let ceiling := ScopeSet.parse c.scope
  let asked := ScopeSet.parse requested
  if !asked.isEmpty then
    if !asked.isSubset ceiling then .error (scopeDenialError c ceiling)
    else if catalog.any fun cat => !asked.isSubset cat then
      .error (.wrapped .invalidScope "the requested scope is not declared by the target resource")
    else .ok asked
  else
    match catalog with
    | none => .ok ceiling
    | some cat =>
      let effective := ceiling.intersect cat
      if effective.isEmpty then
        if ceiling.isEmpty then .error (scopeDenialError c ceiling)
        else .error (.wrapped .invalidScope
          "none of the client's registered scopes is declared by the target resource")
      else .ok effective

/-- `ClientCredentialsService.Exchange`. -/
def exchange (ctx : ReqID) (req : ClientCredentialsRequest) : Svc MachineTokenResponse := do
  let c ← authenticateClient env req.clientID req.clientSecret
  failIf (!hasGrantType c.grantTypes "client_credentials") (.sentinel .unauthorizedClient)
  let catalog ← resolveCatalog env req.resource
  let scopes ← Prog.ofExcept (clientCredentialsScope c req.scope catalog)
  let jkt ← dpopThumbprint env req.dpop
  let now ← timeNow
  let jti ← generateRandomString env ctx
  MachineIssue.issue env ctx "insert client_credentials issuance" env.clientCredentials.tokenExpiry
    { subject := req.clientID, clientID := req.clientID, resource := req.resource, scopes := scopes
      act := none, dpopJKT := jkt, now := now, expiry := now + env.clientCredentials.tokenExpiry
      jti := jti }

end ClientCredentialsService

end AuthServer
