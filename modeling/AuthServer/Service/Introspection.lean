import AuthServer.Service.Mint

/-!
# Introspection

`IntrospectionService.IntrospectToken`. A caller that authenticates is told that a token is inactive
when the token does not verify, when the caller is neither its client nor a runtime client of its
audience, and when anything behind the token is revoked, suspended or gone.
-/

namespace AuthServer

open Interleave

structure IntrospectRequest where
  token : AccessTokenClaims
  clientID : String
  clientSecret : String
  deriving DecidableEq, Repr

structure IntrospectResponse where
  active : Bool
  scope : String
  clientID : String
  sub : String
  aud : String
  iss : String
  exp : Int
  iat : Int
  jti : String
  tokenType : String
  cnf : Option String
  deriving DecidableEq, Repr

variable (env : Env)

namespace IntrospectionService

/-- The bare `{active: false}`. -/
def inactive : IntrospectResponse :=
  ⟨false, "", "", "", "", "", 0, 0, "", "", none⟩

variable (claims : AccessTokenClaims)

/-- The answer for an active token. -/
def activeResponse : IntrospectResponse where
  active := true
  scope := claims.scope
  clientID := claims.clientID
  sub := claims.subject
  aud := claims.audience.headD ""
  iss := claims.issuer
  exp := claims.expiry
  iat := claims.issuedAt
  jti := claims.jti
  tokenType := if claims.cnf.isSome then "DPoP" else "Bearer"
  cnf := claims.cnf

def accepts (c : Client) (clientSecret : String) : Bool :=
  !c.isPublic && clientSecret != "" &&
    env.compareClientSecret c.secretHash clientSecret && c.isActive

def authenticateCaller (req : IntrospectRequest) : Svc Client := do
  let r ← (fetch (ClientStore.getByID req.clientID)).attempt
  let c ← Prog.ofExcept (r.mapError fun _ => .sentinel .invalidClient)
  failIf (!accepts env c req.clientSecret) (.sentinel .invalidClient)
  pure c

def resourceAuthorizes (r : Resource) (clientID : String) : Bool :=
  r.policy.runtimeClientIDs.contains clientID || r.slug == clientID || r.uri == clientID

/-- Does some resource in the audience authorize the caller? A lookup that fails or is ambiguous
does not. -/
def audienceAuthorizes (env : Env) (clientID : String) : List String → Svc Bool
  | [] => pure false
  | aud :: rest =>
    if aud == "" || aud == env.issuer then audienceAuthorizes env clientID rest
    else do
      let r ← (fetch (ResourceRegistry.resolve aud)).attempt
      match r with
      | .ok res =>
        if resourceAuthorizes res clientID then pure true else audienceAuthorizes env clientID rest
      | .error _ => audienceAuthorizes env clientID rest

/-- `IntrospectionService.callerEntitlement`. The source also tells the ways of not being entitled
apart; the answer is the same bare `{active: false}` for all of them. -/
def callerEntitlement (clientID : String) (claims : AccessTokenClaims) : Svc Bool :=
  if clientID == claims.clientID then pure true
  else audienceAuthorizes env clientID claims.audience

/-- The issuance row does not stand against the token; a store that does not answer does. -/
def issuanceStands : Svc Bool :=
  if claims.jti == "" then pure true
  else do
    let r ← (fetch (IssuanceStore.getByJTI claims.jti)).attempt
    pure (match r with
      | .ok iss => !iss.any Issuance.isRevoked
      | .error _ => false)

/-- The machine-token row, if it can be read. -/
def machineRow : Svc (Option MachineToken) :=
  if claims.jti == "" then pure none
  else do
    let r ← (fetch (MachineTokenStore.getByJTI claims.jti)).attempt
    pure (match r with
      | .ok mt => mt
      | .error _ => none)

/-- The machine-token row is not revoked, or the token has none and is not on the denylist. -/
def notDenylisted : Option MachineToken → Svc Bool
  | some mt => pure (!mt.revoked)
  | none =>
    if claims.jti == "" then pure true
    else do
      let r ← (fetch (RevocationStore.isRevoked claims.jti)).attempt
      pure (match r with
        | .ok revoked => !revoked
        | .error _ => false)

def issuedThroughFrontingSource : Svc Bool :=
  if claims.clientID == "" ||
    (claims.act.map (Json.Object.text "sub")).getD "" != claims.clientID then
    pure false
  else do
    let r ← (fetch (ResourceRegistry.resolve claims.clientID)).attempt
    pure (match r with
      | .ok res => res.slug == claims.clientID
      | .error _ => false)

/-- The issuing client is active; one that does not exist must be a fronting source. -/
def issuerAlive : Svc Bool := do
  let r ← (fetch (ClientStore.getByID claims.clientID)).attempt
  match r with
  | .ok c => pure c.isActive
  | .error e =>
    if e.is .invalidClient || e.is .clientNotFound then issuedThroughFrontingSource claims
    else pure false

/-- The subject is an active user; the subject of a machine token need not be a user. -/
def subjectAlive (machine : Bool) : Svc Bool :=
  if claims.subject == "" || (machine && claims.subject == claims.clientID) then pure true
  else do
    let r ← (fetch (UserStore.getByID claims.subject)).attempt
    pure (match r with
      | .ok u => u.isActive
      | .error e => machine && e.is .userNotFound)

/-- Every check on a token whose caller is entitled, in the source's order. -/
def isLive : Svc Bool := do
  let stands ← issuanceStands claims
  if stands then do
    let machine ← machineRow claims
    let listed ← notDenylisted claims machine
    if listed then do
      let issuer ← issuerAlive claims
      if issuer then subjectAlive claims machine.isSome else pure false
    else pure false
  else pure false

def introspectVerified (caller : Client) (claims : AccessTokenClaims) :
    Svc IntrospectResponse := do
  let entitled ← callerEntitlement env caller.id claims
  if entitled then do
    let live ← isLive claims
    pure (if live then activeResponse claims else inactive)
  else pure inactive

/-- `IntrospectionService.IntrospectToken`. -/
def introspectToken (req : IntrospectRequest) : Svc IntrospectResponse := do
  let caller ← authenticateCaller env req
  let verdict ← (fetch fun w => .ok (verifyAccessToken env req.token w)).attempt
  match verdict with
  | .ok (.ok claims) => introspectVerified env caller claims
  | _ => pure inactive

end IntrospectionService

end AuthServer
