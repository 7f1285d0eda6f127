import AuthServer.Domain.Validation
import AuthServer.Service.Mint

/-!
# The token service

`TokenService.ExchangeCode` and `TokenService.RefreshToken` of `internal/services/token.go`, with
the reuse-detection response both of them can set off. Metrics, logs and audit rows are left out;
they decide nothing. -/

namespace AuthServer

open Interleave

structure ExchangeCodeRequest where
  code : String
  codeVerifier : String
  redirectURI : String
  clientID : String
  clientSecret : String
  resource : String
  dpop : DPoPRequest
  deriving DecidableEq, Repr

structure RefreshTokenRequest where
  refreshToken : String
  clientID : String
  clientSecret : String
  scope : String
  resource : String
  dpop : DPoPRequest
  deriving DecidableEq, Repr

structure TokenResponse where
  accessToken : AccessTokenClaims
  tokenType : String
  expiresIn : Int
  refreshToken : String
  scope : String
  deriving DecidableEq, Repr

def hasGrantType (grantTypes : List String) (target : String) : Bool :=
  grantTypes.contains target

/-- The grants without a user in the loop. -/
def machineGrants : List String :=
  ["client_credentials", "urn:ietf:params:oauth:grant-type:jwt-bearer",
    "urn:ietf:params:oauth:grant-type:token-exchange"]

/-- `isDelegatedOnly`: none of them. -/
def isDelegatedOnly (grantTypes : List String) : Bool :=
  !(machineGrants.any (hasGrantType grantTypes))

/-- `scopeDenialError`: why a client is denied a scope that its ceiling does not have. -/
def scopeDenialError (c : Client) (ceiling : ScopeSet) : Err :=
  if !ceiling.isEmpty then
    .wrapped .invalidScope "the requested scope exceeds the client's registered scopes"
  else if (c.registrationSource == .dcr || c.registrationSource == .cimd) &&
      !isDelegatedOnly c.grantTypes then
    .wrapped .invalidScope ("this client was created through dynamic registration, which " ++
      "issues user-delegated clients only; machine-to-machine clients must be " ++
      "pre-registered through the admin API")
  else if c.registrationSource == .dcr || c.registrationSource == .cimd then
    .wrapped .invalidScope ("this client has no registered scopes; dynamically " ++
      "registered clients are assigned oauth.default_client_scope when they " ++
      "register, so re-register the client or grant scopes with " ++
      "PATCH /admin/clients/\x7bclient_id\x7d")
  else
    .wrapped .invalidScope ("the client has no registered scopes; grant them with " ++
      "PATCH /admin/clients/\x7bid\x7d")

variable (env : Env)

/-- `authenticateClient`, as token exchange and the two machine grants have it: an active
confidential client, with its secret. -/
def authenticateMachine (clientID clientSecret : String) : Svc Client := do
  failIf (clientID == "" || clientSecret == "") (.sentinel .invalidClient)
  let r ← (fetch (ClientStore.getByID clientID)).attempt
  let c ← Prog.ofExcept (r.mapError fun _ => .sentinel .invalidClient)
  failIf (!c.isActive) (.sentinel .clientSuspended)
  failIf c.isPublic (.sentinel .invalidClient)
  failIf (!env.compareClientSecret c.secretHash clientSecret) (.sentinel .invalidClient)
  pure c

namespace TokenService

/-! ### Helpers -/

/-- The credential part of `authenticateClient`: a confidential client must send its secret and a
public one must send none. -/
def secretMatches (c : Client) (clientSecret : String) : Bool :=
  if c.isPublic then clientSecret == ""
  else clientSecret != "" && env.compareClientSecret c.secretHash clientSecret

/-- An active client that shows its secret. -/
def authenticateClient (clientID clientSecret : String) : Svc Client := do
  let r ← (fetch (ClientStore.getByID clientID)).attempt
  let c ← Prog.ofExcept (r.mapError fun _ => .sentinel .invalidClient)
  failIf (!c.isActive) (.sentinel .clientSuspended)
  failIf (!secretMatches env c clientSecret) (.sentinel .invalidClient)
  pure c

/-- `resourceIdentityEqual`: equal once scheme and host are folded. -/
def resourceIdentityEqual (a b : String) : Bool :=
  match env.urlParse a, env.urlParse b with
  | some au, some bu =>
    env.urlString { au with scheme := toLower au.scheme, host := toLower au.host } ==
      env.urlString { bu with scheme := toLower bu.scheme, host := toLower bu.host }
  | _, _ => false

/-- The last part of `validateRequestedResource`: does the authorized identifier resolve to the
resource the request named? -/
def authorizesResource (requestedRes : Resource) (authorized : String) : Svc Bool :=
  if authorized == "" then pure false
  else do
    let r ← (fetch (ResourceRegistry.resolve authorized)).attempt
    pure (match r with
      | .ok authorizedRes => authorizedRes.id == requestedRes.id
      | .error _ => false)

def validateRequestedResource (requested authorized : String) : Svc Unit :=
  if requested == "" || requested == authorized ||
    resourceIdentityEqual env requested authorized then
    pure ()
  else do
    let r ← (fetch (ResourceRegistry.resolve requested)).attempt
    let requestedRes ← Prog.ofExcept (r.mapError fun _ =>
      .wrapped .invalidTarget
        ("resource " ++ env.quote requested ++ " is not a registered resource"))
    let covered ← authorizesResource requestedRes authorized
    failIf (!covered)
      (.wrapped .invalidTarget
        ("resource " ++ env.quote requested ++ " was not authorized by this grant"))

/-- The subject check of both grants: the user exists and is active. A redemption reports a store
failure as such, a refresh reports every failure as an invalid grant. -/
def checkSubject (userID : String) (onFault : Err → Err) : Svc Unit :=
  if userID == "" then pure ()
  else do
    let r ← (fetch (UserStore.getByID userID)).attempt
    let u ← Prog.ofExcept (r.mapError fun e =>
      if e.is .userNotFound then .sentinel .invalidGrant else onFault e)
    failIf (!u.isActive) (.sentinel .invalidGrant)

structure MintParams where
  userID : String
  clientID : String
  scope : String
  resource : String
  dpopJKT : String
  agentIdentity : Option AgentIdentityClaims
  deriving DecidableEq, Repr

/-- Resolve the session's resource; a failure only means that no issuance row is written. -/
def resolveForIssuance (resource : String) : Svc (Option Resource) :=
  if resource == "" then pure none
  else do
    let r ← (fetch (ResourceRegistry.resolve resource)).attempt
    pure r.toOption

/-- The request of `buildMintRequest`, once the resource is resolved. -/
def mintRequest (now expiry : Time) (p : MintParams) (res : Option Resource) : IssueRequest where
  resource := res
  subjectUserID := p.userID
  actorClientID := p.clientID
  scopes := Text.fields p.scope
  agentIdentity := p.agentIdentity
  dpopJKT := p.dpopJKT
  consentClientID := p.clientID
  parentJTI := ""
  audience := if p.resource == "" then [] else [p.resource]
  act := none
  notBefore := now
  expiry := expiry

/-- What the issuer is asked for. -/
def buildMintRequest (now expiry : Time) (p : MintParams) : Svc IssueRequest := do
  let res ← resolveForIssuance p.resource
  pure (mintRequest now expiry p res)

variable (ctx : ReqID) (familyID : String) (now refreshExpiry : Time)

/-- The row `createRefreshToken` stores. -/
def refreshRow (w : World) : RefreshToken where
  id := env.random ctx (w.drawn ctx + 1)
  familyID := familyID
  tokenHash := env.hashSHA256 (env.random ctx (w.drawn ctx))
  expiresAt := now + refreshExpiry
  consumedAt := none
  createdAt := now

/-- `TokenService.createRefreshToken`: draw the token and its id, store the hash. -/
def createRefreshToken : Call String := fun w =>
  Call.andThen (Call.wrapErr "create refresh token"
      (TokenStore.createRefreshToken ctx (refreshRow env ctx familyID now refreshExpiry w)))
    (fun _ w' => (.ok (env.random ctx (w.drawn ctx)), w')) ((w.draw ctx).draw ctx)

theorem createRefreshToken_cases (w : World) :
    (∃ e, createRefreshToken env ctx familyID now refreshExpiry w =
        (.error e, (w.draw ctx).draw ctx)) ∨
      ∃ w', TokenStore.createRefreshToken ctx (refreshRow env ctx familyID now refreshExpiry w)
          ((w.draw ctx).draw ctx) = (.ok (), w') ∧
        createRefreshToken env ctx familyID now refreshExpiry w =
          (.ok (env.random ctx (w.drawn ctx)), w') := by
  unfold createRefreshToken Call.andThen Call.wrapErr TokenStore.createRefreshToken
  split
  · rename_i u w' heq
    split at heq
    · cases heq
    · rename_i hnew
      refine .inr ⟨w', ?_, rfl⟩
      rw [if_neg hnew]
      exact heq
  · rename_i e w' heq
    split at heq
    · exact .inl ⟨e, congrArg (Prod.mk _) (Prod.mk.inj heq).2.symm⟩
    · cases heq

/-- `TokenService.trackJTI`: best effort. -/
def trackJTI (jti familyID : String) (expiry : Time) : Svc Unit := do
  let _ ← (store (RevocationStore.trackJTI jti familyID expiry)).attempt
  pure ()

/-! ### Reuse detection -/

/-- The second half of the response to a replay. -/
def denylistFamilyJTIs : Svc (Except Err Unit) :=
  (store (RevocationStore.revokeByFamily ctx familyID)).attempt

/-- `runReuseHalves`: revoke the family, then denylist its access tokens, each in its own call and
the second whatever became of the first. Returns which of the two succeeded. -/
def runReuseHalves : Svc (Bool × Bool) := do
  let familyRevoked ← (store (TokenStore.revokeFamily ctx familyID)).attempt
  let jtisDenylisted ← denylistFamilyJTIs ctx familyID
  pure (familyRevoked.isOk, jtisDenylisted.isOk)

/-- `revokeFamilyOnReuse`: the family half decides the error. -/
def revokeFamilyOnReuse (rt : RefreshToken) : Svc Unit := do
  let halves ← runReuseHalves ctx rt.familyID
  Prog.fail (.sentinel (if halves.1 then .familyRevoked else .reuseRevocationFailed))

/-- Consume the token; a replay revokes the family. -/
def consumeOrRevokeFamily (rt : RefreshToken) : Svc Unit := do
  let r ← (store (TokenStore.consumeRefreshToken ctx rt.id)).attempt
  match r with
  | .ok _ => pure ()
  | .error e =>
    if e.is .refreshTokenReused then revokeFamilyOnReuse ctx rt
    else Prog.fail (e.wrap "consume refresh token")

/-- The response of `handleCodeReuse` on a family: one that is revoked already is not revoked again,
but its access tokens are denylisted. -/
def respondToCodeReuse (fam : Family) : Svc Unit :=
  if fam.isActive then do
    let _ ← runReuseHalves ctx fam.id
    pure ()
  else do
    let _ ← denylistFamilyJTIs ctx fam.id
    pure ()

/-- `handleCodeReuse`: a replayer who holds the verifier and names the client sets off the response
on the family of the session, if it exists. -/
def handleCodeReuse (sess : AuthSession) (verifier clientID : String) : Svc Unit :=
  if env.verifyS256 verifier sess.codeChallenge && clientID == sess.clientID then do
    let r ← (fetch (TokenStore.getFamilyByAuthSessionID sess.id)).attempt
    match r with
    | .ok fam => respondToCodeReuse ctx fam
    | .error _ => pure ()
  else pure ()

/-! ### Code redemption -/

variable (req : ExchangeCodeRequest)

/-- The session of a code presented for the first time; a replay is responded to and refused. -/
def redeemedSession : SessionStore.CodeUse → Svc AuthSession
  | .consumed sess => pure sess
  | .alreadyConsumed sess => do
    handleCodeReuse env ctx sess req.codeVerifier req.clientID
    Prog.fail (.sentinel .codeConsumed)

/-- The family a redemption opens. -/
def familyOf (sess : AuthSession) (familyID : String) (now : Time) : Family where
  id := familyID
  clientID := sess.clientID
  userID := sess.userID
  scope := sess.scope
  resource := sess.resource
  status := .active
  createdAt := now
  revokedAt := none
  authSessionID := sess.id

/-- `TrackJTI` inside the transaction of a redemption: best effort, so it may be skipped. -/
def trackInTransaction (tracked : Bool) (jti familyID : String) (expiry : Time) : Call Unit :=
  if tracked then RevocationStore.trackJTI jti familyID expiry else fun w => (.ok (), w)

theorem trackInTransaction_ok {tracked : Bool} {jti id : String} {expiry : Time} {w w' : World}
    (h : trackInTransaction tracked jti id expiry w = (.ok (), w')) :
    w' = w ∨ w' = { w with accessTokenJTIs := w.accessTokenJTIs ++ [⟨jti, id, expiry⟩] } := by
  unfold trackInTransaction at h
  split at h
  · rcases RevocationStore.trackJTI_cases jti id expiry w with ⟨-, heq⟩ | ⟨-, heq⟩ <;> rw [heq] at h
    · exact .inl (Prod.mk.inj h).2.symm
    · exact .inr (Prod.mk.inj h).2.symm
  · exact .inl (Prod.mk.inj h).2.symm

/-- The transaction of a redemption: create the family, track the access token, and create the first
refresh token for a client registered for that grant. Returns the refresh token, empty if none. -/
def createFamilyAndRefresh (family : Family) (jti : String)
    (now expiry : Time) (issueRefresh tracked : Bool) : Call String :=
  Call.andThen (Call.wrapErr "create token family" (TokenStore.createFamily family)) fun _ =>
    Call.andThen (trackInTransaction tracked jti family.id expiry) fun _ =>
      if issueRefresh then createRefreshToken env ctx family.id now env.tokens.refreshTokenExpiry
      else fun w => (.ok "", w)

theorem createFamilyAndRefresh_ok {env : Env} {ctx : ReqID} {family : Family} {jti plain : String}
    {now expiry : Time} {issueRefresh tracked : Bool} {w w' : World}
    (h : createFamilyAndRefresh env ctx family jti now expiry issueRefresh tracked w =
      (.ok plain, w')) :
    ∃ w₁ w₂, TokenStore.createFamily family w = (.ok (), w₁) ∧
      trackInTransaction tracked jti family.id expiry w₁ = (.ok (), w₂) ∧
      ((issueRefresh = false ∧ w' = w₂) ∨ issueRefresh = true ∧
        createRefreshToken env ctx family.id now env.tokens.refreshTokenExpiry w₂ =
          (.ok plain, w')) := by
  obtain ⟨u₁, w₁, h₁, hrest⟩ := Call.andThen_ok h
  obtain ⟨u₂, w₂, h₂, hlast⟩ := Call.andThen_ok hrest
  refine ⟨w₁, w₂, Call.wrapErr_ok h₁, h₂, ?_⟩
  cases issueRefresh with
  | false => exact .inl ⟨rfl, (Prod.mk.inj hlast).2.symm⟩
  | true => exact .inr ⟨rfl, hlast⟩

/-- The end of `exchangeCode`, once the access token is minted: the transaction, then the answer. -/
def openFamily (sess : AuthSession) (c : Client) (resp : IssueResponse)
    (now expiry : Time) : Svc TokenResponse := do
  let familyID ← generateRandomString env ctx
  let tracked ← answers
  let refreshPlain ← withTransaction (createFamilyAndRefresh env ctx (familyOf sess familyID now)
    resp.issuanceID now expiry (hasGrantType c.grantTypes "refresh_token") tracked)
  release ctx resp.accessToken (.redeemed familyID resp.issuanceID)
  pure
    { accessToken := resp.accessToken, tokenType := resp.tokenType
      expiresIn := seconds env.tokens.accessTokenExpiry, refreshToken := refreshPlain
      scope := sess.scope }

/-- The part of `exchangeCode` after the code was consumed. -/
def redeem (sess : AuthSession) : Svc TokenResponse := do
  let now₀ ← timeNow
  failIf (now₀ > sess.expiresAt) (.sentinel .invalidGrant)
  failIf (req.clientID != sess.clientID) (.sentinel .invalidClient)
  failIf (req.redirectURI != sess.redirectURI) (.sentinel .invalidGrant)
  let c ← authenticateClient env sess.clientID req.clientSecret
  failIf (!env.verifyS256 req.codeVerifier sess.codeChallenge) (.sentinel .invalidPKCE)
  validateRequestedResource env req.resource sess.resource
  checkSubject sess.userID (Err.wrap "resolve subject")
  let jkt ← dpopThumbprint env req.dpop
  let now ← timeNow
  let expiry := now + env.tokens.accessTokenExpiry
  let mint ← buildMintRequest now expiry
    { userID := sess.userID, clientID := sess.clientID, scope := sess.scope
      resource := sess.resource, dpopJKT := jkt
      agentIdentity := extractAgentIdentityClaimsForClient env c none }
  let resp ← MintIssuer.issue env ctx mint
  openFamily env ctx sess c resp now expiry

/-- `TokenService.ExchangeCode`. -/
def exchangeCode : Svc TokenResponse := do
  let use ← store (SessionStore.consumeByCodeHash ctx (env.hashSHA256 req.code))
  let sess ← redeemedSession env ctx req use
  redeem env ctx req sess

/-! ### Refresh -/

/-- `refreshScope`: what a refreshed token carries, bounded by the family and by the client's
ceiling. -/
def refreshScope (requested familyScope : String) (c : Client) : Except Err String :=
  let granted := ScopeSet.parse familyScope
  let ceiling := ScopeSet.parse c.scope
  if requested != "" then
    let asked := ScopeSet.parse requested
    if !asked.isSubset granted then .error (.sentinel .invalidScope)
    else if !ceiling.isEmpty && !asked.isSubset ceiling then .error (scopeDenialError c ceiling)
    else .ok asked.toString
  else if ceiling.isEmpty || granted.isSubset ceiling then .ok familyScope
  else if (granted.intersect ceiling).isEmpty then .error (scopeDenialError c ceiling)
  else .ok (granted.intersect ceiling).toString

/-- The family is re-read after the mint: if it was revoked meanwhile the row just written is
revoked too, as far as that works, and the refresh is refused. -/
def recheckFamily (familyID issuanceID : String) : Svc Family := do
  let family ← wrapErr "re-check family" (fetch (TokenStore.getFamily familyID))
  if family.isActive then pure family
  else do
    let _ ← (store (IssuanceStore.revoke issuanceID)).attempt
    Prog.fail (.sentinel .familyRevoked)

/-- The end of `refreshToken`, once the access token is minted: track it, look at the family again,
store the successor, answer. -/
def storeSuccessor (family : Family) (effectiveScope : String)
    (resp : IssueResponse) (now expiry : Time) : Svc TokenResponse := do
  trackJTI resp.issuanceID family.id expiry
  let family' ← recheckFamily family.id resp.issuanceID
  let refreshPlain ← store (createRefreshToken env ctx family'.id now env.tokens.refreshTokenExpiry)
  release ctx resp.accessToken (.refreshed family'.id resp.issuanceID)
  pure
    { accessToken := resp.accessToken, tokenType := resp.tokenType
      expiresIn := seconds env.tokens.accessTokenExpiry, refreshToken := refreshPlain
      scope := effectiveScope }

/-- The part of `refreshToken` after the presented token was consumed. -/
def rotate (req : RefreshTokenRequest) (family : Family) (c : Client)
    (effectiveScope : String) : Svc TokenResponse := do
  checkSubject family.userID fun _ => .sentinel .invalidGrant
  let jkt ← dpopThumbprint env req.dpop
  let now ← timeNow
  let expiry := now + env.tokens.accessTokenExpiry
  let mint ← buildMintRequest now expiry
    { userID := family.userID, clientID := family.clientID, scope := effectiveScope
      resource := family.resource, dpopJKT := jkt
      agentIdentity := extractAgentIdentityClaimsForClient env c none }
  let resp ← MintIssuer.issue env ctx mint
  storeSuccessor env ctx family effectiveScope resp now expiry

/-- The token configuration, which is fixed but may fail to be resolved. -/
def resolveTokenConfig : Svc TokenConfig :=
  wrapErr "resolve token config" (fetch fun _ => .ok env.tokens)

/-- What a refresh has found out when it presents its token to be consumed. -/
structure RefreshAdmission where
  token : RefreshToken
  family : Family
  client : Client
  scope : String

/-- The part of `refreshToken` before the presented token is consumed. -/
def admitRefresh (req : RefreshTokenRequest) : Svc RefreshAdmission := do
  let r ← (fetch (TokenStore.getRefreshTokenByHash (env.hashSHA256 req.refreshToken))).attempt
  let rt ← Prog.ofExcept (r.mapError fun _ => .sentinel .invalidGrant)
  let now₀ ← timeNow
  failIf (now₀ > rt.expiresAt) (.sentinel .invalidGrant)
  let family ← wrapErr "get family" (fetch (TokenStore.getFamily rt.familyID))
  failIf (!family.isActive) (.sentinel .familyRevoked)
  failIf (req.clientID != family.clientID) (.sentinel .invalidClient)
  let c ← authenticateClient env family.clientID req.clientSecret
  failIf (!hasGrantType c.grantTypes "refresh_token")
    (.wrapped .unauthorizedClient "the client is not registered for the refresh_token grant")
  validateRequestedResource env req.resource family.resource
  let effectiveScope ← Prog.ofExcept (refreshScope req.scope family.scope c)
  let _ ← resolveTokenConfig env
  pure ⟨rt, family, c, effectiveScope⟩

/-- `TokenService.RefreshToken`. -/
def refreshToken (req : RefreshTokenRequest) : Svc TokenResponse := do
  let a ← admitRefresh env req
  consumeOrRevokeFamily ctx a.token
  rotate env ctx req a.family a.client a.scope

end TokenService

end AuthServer
