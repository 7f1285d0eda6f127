import AuthServer.Service.Uses

/-!
# Proof rules for redemption and refresh

What each stage of a code redemption and of a refresh establishes, under any contract that tolerates
quiet steps. The rules cut the two methods at their writes: `ensures_refreshToken` goes up to
consuming the presented token, `ensures_rotate` from there to the issuance row, and `ensures_redeem`
does the same for a redemption. What follows the row is left to the reader of the rules, since it is
where the properties of this development differ. -/

namespace AuthServer

open Interleave

namespace TokenService

variable {C : Contract ReqID World} {i : ReqID} {α : Type} {s t : World} {env : Env}

/-! ### Reading the store -/

theorem ensures_authenticateClient (hC : Tolerant C i) {clientID clientSecret : String}
    {g : Client → Svc α} {Q : α → World → Prop} (hs : C.inv s) (h : ∀ c t, C.rely i s t → C.inv t →
      Between C i s t (fun u => ClientStore.getByID clientID u = .ok c) → Ensures C i Q (g c) t) :
    Ensures C i Q (authenticateClient env clientID clientSecret >>= g) s := by
  simp only [authenticateClient, Prog.bind_assoc]
  refine hC.readOr hs fun c t hst ht hread => ?_
  refine .bindFailIf fun _ => .bindFailIf fun _ => ?_
  exact h c t hst ht hread

/-- What looking up the resource of an issuance says: a row that was there, or that there was none.
-/
structure Resolved (C : Contract ReqID World) (i : ReqID) (s t : World) (resource : String)
    (res : Option Resource) : Prop where
  found : ∀ r ∈ res, resource ≠ "" ∧
    Between C i s t fun u => ResourceRegistry.resolve resource u = .ok r
  missing : ¬C.faulty → resource ≠ "" → res = none →
    Between C i s t fun u => ∀ r, ResourceRegistry.resolve resource u ≠ .ok r

variable {resource : String}

theorem ensures_resolveForIssuance (hC : Tolerant C i) {g : Option Resource → Svc α}
    {Q : α → World → Prop} (hs : C.inv s)
    (h : ∀ res t, C.rely i s t → C.inv t → Resolved C i s t resource res →
      Ensures C i Q (g res) t) :
    Ensures C i Q (resolveForIssuance resource >>= g) s := by
  unfold resolveForIssuance
  split
  · rename_i hempty
    exact h none s (C.rely_refl i s) hs
      ⟨by simp, fun _ hne => absurd (beq_iff_eq.mp hempty) hne⟩
  · rename_i hne
    rw [Prog.bind_assoc]
    refine .bind (hC.attempt_fetch hs fun r hr t hst ht => ?_)
    refine h r.toOption t hst ht ⟨fun res hres => ⟨by simpa using hne, .here hs hst ?_⟩,
      fun hfaulty _ hnone => .here hs hst fun res hres => ?_⟩
    · rcases hr with rfl | ⟨rfl, -⟩
      · cases hread : ResourceRegistry.resolve resource s with
        | ok r => simpa [hread, Except.toOption] using hres
        | error e => simp [hread, Except.toOption] at hres
      · simp [Except.toOption] at hres
    · rcases hr with rfl | ⟨-, hf⟩
      · simp [hres, Except.toOption] at hnone
      · exact hfaulty hf

theorem ensures_buildMintRequest (hC : Tolerant C i) {now expiry : Time} {p : MintParams}
    {g : IssueRequest → Svc α} {Q : α → World → Prop} (hs : C.inv s)
    (h : ∀ res t, C.rely i s t → C.inv t → Resolved C i s t p.resource res →
      Ensures C i Q (g (mintRequest now expiry p res)) t) :
        Ensures C i Q (buildMintRequest now expiry p >>= g) s := by
  simp only [buildMintRequest, Prog.bind_assoc, Prog.pure_bind]
  exact ensures_resolveForIssuance hC hs h

variable {res : Option Resource}

theorem Resolved.after {s' : World} (hs : C.rely i s' s)
    (h : Resolved C i s t resource res) : Resolved C i s' t resource res :=
  ⟨fun r hr => ⟨(h.found r hr).1, (h.found r hr).2.after hs⟩,
    fun hf hne hnone => (h.missing hf hne hnone).after hs⟩

theorem Resolved.trans {t' : World} (h : Resolved C i s t resource res)
    (ht : C.rely i t t') : Resolved C i s t' resource res :=
  ⟨fun r hr => ⟨(h.found r hr).1, (h.found r hr).2.trans ht⟩,
    fun hf hne hnone => (h.missing hf hne hnone).trans ht⟩

/-! ### Refresh -/

/-- What a refresh has seen when it presents its token to be consumed. -/
structure RefreshChecked (C : Contract ReqID World) (i : ReqID) (env : Env)
    (req : RefreshTokenRequest) (s t : World) (rt : RefreshToken) (family : Family) (c : Client)
    (scope : String) : Prop where
  tokenRead : Between C i s t fun u =>
    TokenStore.getRefreshTokenByHash (env.hashSHA256 req.refreshToken) u = .ok rt
  familyRead : Between C i s t fun u => TokenStore.getFamily rt.familyID u = .ok family
  active : family.isActive = true
  scoped_by : refreshScope req.scope family.scope c = .ok scope

variable {Q : TokenResponse → World → Prop} {req : RefreshTokenRequest}

/-- **Up to the consumption.** -/
theorem ensures_refreshToken (hC : Tolerant C i) (hs : C.inv s)
    (h : ∀ rt family c scope t, C.rely i s t → C.inv t →
      RefreshChecked C i env req s t rt family c scope →
      Ensures C i Q (consumeOrRevokeFamily i rt >>= fun _ => rotate env i req family c scope) t) :
    Ensures C i Q (refreshToken env i req) s := by
  simp only [refreshToken, admitRefresh, Prog.bind_assoc, Prog.pure_bind]
  refine hC.readOr hs fun rt t₁ h₁ hi₁ htoken => ?_
  refine hC.pass each_timeNow hi₁ fun now₀ t₂ h₂ hi₂ => ?_
  refine .bindFailIf fun _ => ?_
  refine hC.readWrapped hi₂ fun family t₃ h₃ hi₃ hfamily => ?_
  refine .bindFailIf fun hactive => ?_
  refine .bindFailIf fun _ => ?_
  refine ensures_authenticateClient hC hi₃ fun c t₄ h₄ hi₄ _ => ?_
  refine .bindFailIf fun _ => ?_
  refine hC.pass (each_validateRequestedResource _ _ _) hi₄ fun _ t₅ h₅ hi₅ => ?_
  refine .bindOfExcept fun scope hscope => ?_
  refine hC.pass (each_wrapErr each_fetch) hi₅ fun _ t₆ h₆ hi₆ => ?_
  have h₁₂ := C.rely_trans h₁ h₂
  have h₃₅ := C.rely_trans h₄ (C.rely_trans h₅ h₆)
  exact h rt family c scope t₆ (C.rely_trans h₁₂ (C.rely_trans h₃ h₃₅)) hi₆
    { tokenRead := htoken.trans (C.rely_trans h₂ (C.rely_trans h₃ h₃₅))
      familyRead := (hfamily.after h₁₂).trans h₃₅
      active := by simpa using hactive
      scoped_by := hscope }

/-- **Consuming.** The refresh goes on only if its own call consumed the token; the response to a
replay must keep the contract. -/
theorem ensures_consumeOrRevokeFamily {rt : RefreshToken} {g : Unit → Svc α} {Q : α → World → Prop}
    (hconsume : C.inv (TokenStore.consumeRefreshToken i rt.id s).2 ∧
      C.guar i s (TokenStore.consumeRefreshToken i rt.id s).2)
        (hreuse : ∀ t, C.rely i s t → C.inv t →
      Ensures C i (fun _ _ => True) (runReuseHalves i rt.familyID) t)
    (h : ∀ rt', (TokenStore.consumeRefreshToken i rt.id s).1 = .ok rt' →
      ∀ t, C.rely i (TokenStore.consumeRefreshToken i rt.id s).2 t → C.inv t →
      Ensures C i Q (g ()) t) : Ensures C i Q (consumeOrRevokeFamily i rt >>= g) s := by
  have hrefused : ∀ (e : Err) t, C.rely i s t → C.inv t → Ensures C i Q ((
      if e.is .refreshTokenReused then revokeFamilyOnReuse i rt
      else Prog.fail (e.wrap "consume refresh token") : Svc Unit) >>= g) t := by
    intro e t hst ht
    split
    · unfold revokeFamilyOnReuse
      rw [Prog.bind_assoc]
      exact .bind (Safe.mono (hreuse t hst ht) (fun _ _ _ => trivial) fun _ _ _ => trivial)
    · trivial
  unfold consumeOrRevokeFamily
  rw [Prog.bind_assoc]
  refine .bind (Ensures.attempt_exec (fun _ => hconsume) (fun _ t hst ht => ?_)
    fun _ t hst ht => hrefused storeFault t hst ht)
  rcases TokenStore.consumeRefreshToken_cases i rt.id s with ⟨e, herr⟩ | ⟨_, _, _, _, hok⟩
  · rw [herr] at hst ⊢
    exact hrefused e t hst ht
  · have hres := congrArg Prod.fst hok
    rw [hres]
    exact h _ hres t hst ht

def refreshParams (env : Env) (family : Family) (c : Client) (scope jkt : String) : MintParams where
  userID := family.userID
  clientID := family.clientID
  scope := scope
  resource := family.resource
  dpopJKT := jkt
  agentIdentity := extractAgentIdentityClaimsForClient env c none

/-- The response of the issuer, as a function of the identifier drawn. -/
def issued (env : Env) (req : IssueRequest) (now : Time) (jti : String) : IssueResponse where
  accessToken := MintIssuer.claims env req now jti
  tokenType := if req.dpopJKT == "" then "Bearer" else "DPoP"
  expiresIn := seconds (req.expiry - now)
  issuanceID := jti

/-- **From the consumption to the row.** -/
theorem ensures_rotate (hC : Tolerant C i) {family : Family}
    {c : Client} {scope : String} (hs : C.inv s)
    (h : ∀ jkt now res now' jti t, C.rely i s t → C.inv t → Resolved C i s t family.resource res →
      Drawn C i env jti t → family.userID ≠ "" → jti ≠ "" →
      Ensures C i Q
      (MintIssuer.recordIssuance i
        (mintRequest now (now + env.tokens.accessTokenExpiry) (refreshParams env family c scope jkt)
          res) now' jti >>= fun _ => storeSuccessor env i family scope
          (issued env (mintRequest now (now + env.tokens.accessTokenExpiry)
            (refreshParams env family c scope jkt) res) now' jti) now
            (now + env.tokens.accessTokenExpiry)) t) :
    Ensures C i Q (rotate env i req family c scope) s := by
  unfold rotate
  refine hC.pass (each_checkSubject _ _) hs fun _ t₁ h₁ hi₁ => ?_
  refine hC.pass (each_dpopThumbprint _ _) hi₁ fun jkt t₂ h₂ hi₂ => ?_
  refine hC.pass each_timeNow hi₂ fun now t₃ h₃ hi₃ => ?_
  refine ensures_buildMintRequest hC hi₃ fun res t₄ h₄ hi₄ hres => ?_
  refine MintIssuer.ensures_issue hC hi₄ fun now' jti t₅ h₅ hi₅ hdrawn hsub hjti => ?_
  have h₁₃ := C.rely_trans h₁ (C.rely_trans h₂ h₃)
  exact h jkt now res now' jti t₅ (C.rely_trans h₁₃ (C.rely_trans h₄ h₅)) hi₅
    ((hres.after h₁₃).trans h₅) hdrawn hsub hjti

/-! ### Redemption -/

variable {sess : AuthSession}

theorem ensures_handleCodeReuse (hC : Tolerant C i) {verifier clientID : String} (hs : C.inv s)
    (h : ∀ fam t, C.rely i s t → C.inv t →
      Between C i s t (fun u => TokenStore.getFamilyByAuthSessionID sess.id u = .ok fam) →
      Ensures C i (fun _ _ => True) (respondToCodeReuse i fam) t) :
    Ensures C i (fun _ _ => True) (handleCodeReuse env i sess verifier clientID) s := by
  unfold handleCodeReuse
  split
  · refine .bind (hC.attempt_fetch hs fun r hr t hst ht => ?_)
    cases r with
    | error e => trivial
    | ok fam =>
      have hread : TokenStore.getFamilyByAuthSessionID sess.id s = .ok fam := by
        rcases hr with hr | ⟨hr, -⟩
        · exact hr.symm
        · cases hr
      exact h fam t hst ht (.here hs hst hread)
  · trivial

/-- **Up to the consumed code.** -/
theorem ensures_exchangeCode {req : ExchangeCodeRequest}
    (hconsume : C.inv (SessionStore.consumeByCodeHash i (env.hashSHA256 req.code) s).2 ∧
      C.guar i s (SessionStore.consumeByCodeHash i (env.hashSHA256 req.code) s).2)
    (hreuse : ∀ sess t, C.inv t → Ensures C i (fun _ _ => True)
      (handleCodeReuse env i sess req.codeVerifier req.clientID) t)
    (h : ∀ sess, (SessionStore.consumeByCodeHash i (env.hashSHA256 req.code) s).1 =
      .ok (.consumed sess) → ∀ t,
      C.rely i (SessionStore.consumeByCodeHash i (env.hashSHA256 req.code) s).2 t → C.inv t →
      Ensures C i Q (redeem env i req sess) t) :
    Ensures C i Q (exchangeCode env i req) s := by
  refine .bind (Ensures.exec (fun _ => hconsume) fun use huse _ t hst ht => ?_)
  cases use with
  | consumed sess => exact h sess huse t hst ht
  | alreadyConsumed sess =>
    refine .bind (Ensures.seq (hreuse sess t ht) fun _ _ _ => ?_)
    trivial

def redemptionParams (env : Env) (sess : AuthSession) (c : Client) (jkt : String) : MintParams where
  userID := sess.userID
  clientID := sess.clientID
  scope := sess.scope
  resource := sess.resource
  dpopJKT := jkt
  agentIdentity := extractAgentIdentityClaimsForClient env c none

/-- **From the consumed code to the row.** -/
theorem ensures_redeem (hC : Tolerant C i) {req : ExchangeCodeRequest} (hs : C.inv s)
    (h : ∀ c jkt now res now' jti t, C.rely i s t → C.inv t → req.clientID = sess.clientID →
      Resolved C i s t sess.resource res → Drawn C i env jti t → sess.userID ≠ "" → jti ≠ "" →
      Ensures C i Q
      (MintIssuer.recordIssuance i
        (mintRequest now (now + env.tokens.accessTokenExpiry) (redemptionParams env sess c jkt) res)
        now' jti >>= fun _ =>
        openFamily env i sess c
        (issued env (mintRequest now (now + env.tokens.accessTokenExpiry)
          (redemptionParams env sess c jkt) res) now' jti) now
          (now + env.tokens.accessTokenExpiry)) t) :
    Ensures C i Q (redeem env i req sess) s := by
  unfold redeem
  refine hC.pass each_timeNow hs fun now₀ t₁ h₁ hi₁ => ?_
  refine .bindFailIf fun _ => ?_
  refine .bindFailIf fun hclient => ?_
  refine .bindFailIf fun _ => ?_
  refine ensures_authenticateClient hC hi₁ fun c t₂ h₂ hi₂ _ => ?_
  refine .bindFailIf fun _ => ?_
  refine hC.pass (each_validateRequestedResource _ _ _) hi₂ fun _ t₃ h₃ hi₃ => ?_
  refine hC.pass (each_checkSubject _ _) hi₃ fun _ t₄ h₄ hi₄ => ?_
  refine hC.pass (each_dpopThumbprint _ _) hi₄ fun jkt t₅ h₅ hi₅ => ?_
  refine hC.pass each_timeNow hi₅ fun now t₆ h₆ hi₆ => ?_
  refine ensures_buildMintRequest hC hi₆ fun res t₇ h₇ hi₇ hres => ?_
  refine MintIssuer.ensures_issue hC hi₇ fun now' jti t₈ h₈ hi₈ hdrawn hsub hjti => ?_
  have h₁₆ := C.rely_trans h₁ (C.rely_trans h₂ (C.rely_trans h₃ (C.rely_trans h₄
    (C.rely_trans h₅ h₆))))
  exact h c jkt now res now' jti t₈ (C.rely_trans h₁₆ (C.rely_trans h₇ h₈)) hi₈
    (by simpa using hclient) ((hres.after h₁₆).trans h₈) hdrawn hsub hjti

end TokenService

end AuthServer
