import AuthServer.Service.MachineGrant
import AuthServer.Store.Federation

/-!
# The `jwt-bearer` grant

A client presents an assertion of a trusted identity provider about a user and obtains a token for
that user. `ValidateIDJAG` checks the assertion; the scope is bounded by the client's registered
scopes and by the assertion's; the policies of the provider decide whether the grant is admitted,
and may replace the scope; the subject is a local user when a mapping names one. -/

namespace AuthServer

open Interleave

/-! ### The assertion -/

/-- `extractIssuerFromJWT`, with the error `GrantJWTBearer` gives for it. -/
def extractIssuer (a : SignedAssertion) : Except Err String :=
  if a.claims.issuer == "" then
    .error (.wrapped .assertionInvalid "cannot extract issuer from assertion")
  else .ok a.claims.issuer

variable (env : Env)

/-- The signature check of `ValidateIDJAG`: with the first key that has the assertion's key
identifier, or with each key when it has none. An empty key set leaves no payload to parse. -/
def verifySignature (a : SignedAssertion) (keys : List JSONWebKey) : Except Err Unit :=
  if a.kid != "" then
    match keys.find? (·.kid == a.kid) with
    | none => .error (.wrapped .assertionInvalid ("unknown key id " ++ env.quote a.kid))
    | some k =>
      if k.key == a.signer then .ok ()
      else .error (.wrapped .assertionInvalid "signature verification failed")
  else if keys.isEmpty then .error (.wrapped .assertionInvalid "invalid claims JSON")
  else if keys.any (·.key == a.signer) then .ok ()
  else .error (.wrapped .assertionInvalid "signature verification failed")

/-- The claim checks of `ValidateIDJAG`. The expiry may be any `int64`, so adding the tolerance may
wrap around. -/
def validateClaims (c : IdentityAssertion) (now : Int) (maxAge : Time) : Except Err Unit :=
  if c.expiry == 0 then .error (.wrapped .assertionInvalid "missing exp claim")
  else if now > int64 (c.expiry + clockSkew) then
    .error (.wrapped .assertionExpired "assertion expired")
  else if c.issuedAt == 0 then .error (.wrapped .assertionInvalid "missing iat claim")
  else if c.issuedAt > now + clockSkew then
    .error (.wrapped .assertionInvalid "iat is in the future")
  else if maxAge > 0 && c.issuedAt < now - seconds maxAge then
    .error (.wrapped .assertionExpired "assertion too old (iat exceeds max age)")
  else if c.audience == "" then .error (.wrapped .assertionInvalid "missing aud claim")
  else if c.audience != env.issuer then
    .error (.wrapped .assertionAudienceMismatch
      ("expected " ++ env.quote env.issuer ++ ", got " ++ env.quote c.audience))
  else if c.issuer == "" then .error (.wrapped .assertionInvalid "missing iss claim")
  else if c.subject == "" then .error (.wrapped .assertionInvalid "missing sub claim")
  else if c.clientID == "" then .error (.wrapped .assertionInvalid "missing client_id claim")
  else if c.jti == "" then .error (.wrapped .assertionInvalid "missing jti claim")
  else .ok ()

/-- `crypto.ValidateIDJAG`, at a time. -/
def validateIDJAG (a : SignedAssertion) (keys : List JSONWebKey) (maxAge now : Time) :
    Except Err IdentityAssertion := do
  if a.typ != "oauth-id-jag+jwt" then
    .error (.wrapped .assertionTypeMismatch
      ("expected typ \"oauth-id-jag+jwt\", got " ++ env.quote a.typ))
  else do
    verifySignature env a keys
    validateClaims env a.claims (unix now) maxAge
    .ok a.claims

theorem validateIDJAG_ok {env : Env} {a : SignedAssertion} {keys : List JSONWebKey}
    {maxAge now : Time}
    {claims : IdentityAssertion} (h : validateIDJAG env a keys maxAge now = .ok claims) :
    claims = a.claims ∧ validateClaims env a.claims (unix now) maxAge = .ok () := by
  unfold validateIDJAG at h
  split at h
  · cases h
  · obtain ⟨_, -, h⟩ := ok_of_bind h
    obtain ⟨_, hclaims, h⟩ := ok_of_bind h
    exact ⟨(Except.ok.inj h).symm, hclaims⟩

theorem le_expiry_of_validateClaims {env : Env} {c : IdentityAssertion} {now : Int} {maxAge : Time}
    (h : validateClaims env c now maxAge = .ok ()) : now ≤ int64 (c.expiry + clockSkew) := by
  by_contra hlate
  rw [validateClaims] at h
  by_cases hmissing : (c.expiry == 0) = true
  · rw [if_pos hmissing] at h
    cases h
  · rw [if_neg hmissing, if_pos (not_le.mp hlate)] at h
    cases h

/-! ### Policies -/

namespace XAAPolicyService

def joinScopes (scopes : List String) : String :=
  Text.join scopes

def maximum (scopes : List String) : ScopeSet :=
  ScopeSet.parse (joinScopes scopes)

/-- Does the policy's scope list let the request pass? None at all lets everything pass, an empty
one nothing. -/
def scopesAdmit (requested : ScopeSet) : Option (List String) → Bool
  | none => true
  | some scopes => !scopes.isEmpty && (requested.isEmpty || requested.isSubset (maximum scopes))

def admits (clientID resource : String) (requested : ScopeSet) (p : XAAPolicy) : Bool :=
  p.enabled && (p.clientIDs.isEmpty || p.clientIDs.contains clientID) &&
    (p.resources.isEmpty || p.resources.contains resource) && scopesAdmit requested p.scopes

/-- The scopes a matching policy grants: those requested, or its maximum when none is. -/
def effectiveScope (requested : ScopeSet) (p : XAAPolicy) : ScopeSet :=
  match p.scopes with
  | none => requested
  | some scopes => if requested.isEmpty then maximum scopes else requested

/-- The decision of `EvaluatePolicy` on the policies of the provider: the first that matches. -/
def decidePolicy (clientID resource : String) (requested : ScopeSet) (policies : List XAAPolicy) :
    Except Err ScopeSet :=
  match policies.find? (admits clientID resource requested) with
  | some p => .ok (effectiveScope requested p)
  | none => .error (.sentinel .assertionPolicyDenied)

/-- `EvaluatePolicy`: what a policy of the provider lets pass. -/
def evaluatePolicy (idpID : String) (assertion : IdentityAssertion) (requested : ScopeSet)
    (resource : String) : Svc ScopeSet := do
  let policies ← wrapErr ("list policies for idp " ++ env.quote idpID)
    (fetch fun w => .ok (XAAPolicyStore.listByIDP idpID w))
  Prog.ofExcept (decidePolicy assertion.clientID resource requested policies)

end XAAPolicyService

/-! ### Subjects -/

namespace SubjectMappingService

def errMappedUserInactive : Err :=
  .wrapped .invalidGrant "the mapped local user is disabled"

def checkLocalUserActive (userID : String) : Svc Unit := do
  let r ← (fetch (UserStore.getByID userID)).attempt
  match r with
  | .ok u => failIf (!u.isActive) errMappedUserInactive
  | .error e =>
    if e.is .userNotFound then Prog.fail errMappedUserInactive
    else Prog.fail (e.wrap "look up mapped local user")

/-- `SubjectMappingService.ResolveSubject`. A mapping that could not be read counts as none. -/
def resolveSubject (idpID idpIssuer idpSubject : String) (mode : SubjectMode) : Svc String := do
  let r ← (fetch (SubjectMappingStore.getMapping idpID idpSubject)).attempt
  match r with
  | .ok m =>
    if m.localUserID != "" then do
      checkLocalUserActive m.localUserID
      pure m.localUserID
    else pure (idpIssuer ++ ":" ++ idpSubject)
  | .error _ =>
    match mode with
    | .strict => Prog.fail (.sentinel .subjectMappingNotFound)
    | .autoMap => pure (idpIssuer ++ ":" ++ idpSubject)

end SubjectMappingService

/-! ### The grant -/

structure JWTBearerRequest where
  assertion : AssertionParam
  clientID : String
  clientSecret : String
  scope : String
  resource : String
  dpop : DPoPRequest
  deriving DecidableEq, Repr

namespace JWTBearerService

def authenticateClient := authenticateMachine

/-- The subject of the token: without a mapping service it is the issuer and subject pair. -/
def tokenSubject (idp : TrustedIDP) (assertion : IdentityAssertion) : Svc String :=
  if env.mappingService then
    SubjectMappingService.resolveSubject idp.id assertion.issuer assertion.subject
      env.xaa.subjectMode
  else pure (assertion.issuer ++ ":" ++ assertion.subject)

/-- The assertion of a request, as a JWT. -/
def parseAssertion : AssertionParam → Except Err SignedAssertion
  | .missing => .error (.wrapped .assertionInvalid "missing assertion parameter")
  | .malformed => .error (.wrapped .assertionInvalid "cannot extract issuer from assertion")
  | .signed a => .ok a

def lookupIDP (issuer : String) : Svc TrustedIDP := do
  let r ← (fetch (IDPStore.getByIssuer issuer)).attempt
  let idp ← Prog.ofExcept (r.mapError fun _ =>
    .wrapped .assertionIssuerUntrusted ("issuer " ++ env.quote issuer))
  failIf (!idp.enabled) (.sentinel .idpDisabled)
  pure idp

/-- Against the keys of the provider. -/
def validateAssertion (idp : TrustedIDP) (a : SignedAssertion) : Svc IdentityAssertion := do
  let now ← timeNow
  let keys ← Prog.ofExcept ((env.idpKeys idp.issuer now).mapError
    (Err.wrap ("fetch JWKS for " ++ env.quote idp.issuer)))
  let now' ← timeNow
  Prog.ofExcept (validateIDJAG env a keys env.xaa.maxAssertionAge now')

/-- The resource of the grant: the request's and the assertion's must agree. -/
def reconcileResource (requested asserted : String) : Except Err String :=
  if requested != "" && asserted != "" && requested != asserted then
    .error (.wrapped .invalidScope "requested resource does not match assertion resource")
  else
    let resource := if requested == "" then asserted else requested
    if env.xaa.requireResource && resource == "" then
      .error (.wrapped .invalidTarget "resource is required (xaa.require_resource=true)")
    else .ok resource

/-- The ceiling: the client's registered scopes, within the assertion's when it has a scope claim.
-/
def ceiling (c : Client) (asserted : String) : Except Err ScopeSet :=
  let clientScopes := ScopeSet.parse c.scope
  if clientScopes.isEmpty then .error (.wrapped .invalidScope "client has no registered scope")
  else if asserted != "" then
    let composed := clientScopes.intersect (ScopeSet.parse asserted)
    if composed.isEmpty then .error (.sentinel .invalidScope) else .ok composed
  else .ok clientScopes

/-- The scopes that enter policy evaluation. -/
def requestedScopes (c : Client) (asserted requested : String) : Except Err ScopeSet := do
  let composed ← ceiling c asserted
  if requested != "" then
    if (ScopeSet.parse requested).isSubset composed then .ok (ScopeSet.parse requested)
    else .error (.sentinel .invalidScope)
  else .ok composed

/-- `JWTBearerService.isKnownResource`: a list that could not be read knows none. -/
def isKnownResource (resource : String) : Svc Bool := do
  let r ← (fetch fun w => .ok (ResourceStore.list w)).attempt
  pure (match r with
    | .ok resources => resources.any (·.uri == resource)
    | .error _ => false)

/-- Refuse a resource that is not registered. -/
def checkResource (resource : String) : Svc Unit :=
  runIf (resource != "") do
    let known ← isKnownResource resource
    failIf (!known) (.wrapped .invalidScope ("unknown resource " ++ env.quote resource))

/-- Note the identifier of the assertion. -/
def consumeAssertion (assertion : IdentityAssertion) : Svc Unit := do
  let r ← (store (AssertionJTIStore.consumeJTI assertion.jti
    (timeUnix assertion.expiry + 60 * 1000000000))).attempt
  Prog.ofExcept (r.mapError fun _ => .sentinel .assertionReplay)

/-- The provenance of the token: the provider that vouched for the user. -/
def provenance (issuer : String) : Json.Object :=
  .entry "sub" (.str issuer) .empty

/-- `GrantJWTBearer` from its tenth step on: the assertion is valid and the resource is chosen. -/
def grantAsserted (ctx : ReqID) (req : JWTBearerRequest) (c : Client) (idp : TrustedIDP)
    (assertion : IdentityAssertion) (resource : String) : Svc MachineTokenResponse := do
  consumeAssertion assertion
  let requested ← Prog.ofExcept (requestedScopes c assertion.scope req.scope)
  checkResource env resource
  let scopes ← XAAPolicyService.evaluatePolicy env idp.id assertion requested resource
  let jkt ← dpopThumbprint env req.dpop
  let now ← timeNow
  let jti ← generateRandomString env ctx
  let sub ← tokenSubject env idp assertion
  MachineIssue.issue env ctx "insert jwt_bearer issuance" env.xaa.tokenExpiry
    { subject := sub, clientID := req.clientID, resource := resource, scopes := scopes
      act := some (provenance assertion.issuer), dpopJKT := jkt, now := now
      expiry := now + env.xaa.tokenExpiry, jti := jti }

/-- `JWTBearerService.GrantJWTBearer`. -/
def grantJWTBearer (ctx : ReqID) (req : JWTBearerRequest) : Svc MachineTokenResponse := do
  let c ← authenticateClient env req.clientID req.clientSecret
  failIf (!hasGrantType c.grantTypes "urn:ietf:params:oauth:grant-type:jwt-bearer")
    (.sentinel .unauthorizedClient)
  let a ← Prog.ofExcept (parseAssertion req.assertion)
  let issuer ← Prog.ofExcept (extractIssuer a)
  let idp ← lookupIDP env issuer
  let assertion ← validateAssertion env idp a
  failIf (assertion.clientID != req.clientID) (.sentinel .assertionClientMismatch)
  let resource ← Prog.ofExcept (reconcileResource env req.resource assertion.resource)
  grantAsserted env ctx req c idp assertion resource

end JWTBearerService

end AuthServer
