import AuthServer.Service.Rules

/-!
# Proof rules for the exchange

What each stage of a Mint exchange establishes, under any contract that tolerates quiet steps. A
fact that was read from the store holds of some world *between* the start of the stage and its end:
with interference that is all a reader may conclude.
-/

namespace AuthServer

open Interleave

namespace TokenExchange

variable {C : Contract ReqID World} {i : ReqID} {α : Type} {s t : World} {env : Env}
  {req : TokenExchangeRequest} {claims : AccessTokenClaims} {target : Resource}

variable {faulty : Prop}

/-- A handled read that succeeded returned what was in the store. -/
theorem attempt_ok {f : World → Except Err α} {a : α}
    (h : Except.ok a = f s ∨ Except.ok a = .error storeFault ∧ faulty) : f s = .ok a := by
  rcases h with h | ⟨h, -⟩
  · exact h.symm
  · cases h

/-! ### The subject token and the target -/

variable (hC : Tolerant C i)
include hC

theorem ensures_verifyToken (hs : C.inv s) (raw : AccessTokenClaims) :
    Ensures C i (fun c t => C.rely i s t ∧ C.inv t ∧ c = raw ∧
      Between C i s t fun u => verifyAccessToken env raw u = .ok raw) (verifyToken env raw) s := by
  refine hC.readWrapped hs fun verdict t h hi hread => ?_
  refine .ofExcept fun c hc => ?_
  have hverdict : verdict = .ok c := mapError_eq_ok.mp hc
  obtain ⟨u, hu, hsu, hut, hread⟩ := hread
  have hverified : verifyAccessToken env raw u = .ok c := (Except.ok.inj hread).trans hverdict
  obtain rfl := (verifyAccessToken_ok hverified).1
  exact ⟨h, hi, rfl, u, hu, hsu, hut, hverified⟩

theorem ensures_acceptSubject (hs : C.inv s) (raw : AccessTokenClaims) :
    Ensures C i (fun c t => C.rely i s t ∧ C.inv t ∧ c = raw ∧
      Between C i s t fun u => verifyAccessToken env raw u =
        .ok raw) (acceptSubject env raw) s := by
  refine .seq (ensures_verifyToken hC hs raw) ?_
  rintro c t₁ ⟨h₁, hi₁, rfl, hverified⟩
  refine Ensures.bindFailIf fun _ => ?_
  refine hC.pass (each_checkRevocation _) hi₁ fun _ t₂ h₂ hi₂ => ?_
  refine hC.pass (each_checkLiveness _ _) hi₂ fun _ t₃ h₃ hi₃ => ?_
  have h₁₃ := C.rely_trans h₂ h₃
  exact ⟨C.rely_trans h₁ h₁₃, hi₃, rfl, hverified.trans h₁₃⟩

variable {Q : TokenExchangeResponse → World → Prop}

/-- **The way to the dispatch.** Before an exchange for a named resource is dispatched, its subject
token was verified and the resource resolved. -/
theorem ensures_exchange (hs : C.inv s) (hnamed : req.resource ≠ "")
    (h : ∀ claims target t, C.rely i s t → C.inv t → req.subjectToken = some claims →
      (Between C i s t fun u => verifyAccessToken env claims u = .ok claims) →
      (Between C i s t fun u => ResourceRegistry.resolve req.resource u = .ok target) →
      Ensures C i Q (dispatch env i req claims target) t) :
    Ensures C i Q (exchange env i req) s := by
  unfold exchange
  refine .bindOfExcept fun raw hraw => ?_
  have hsubject : req.subjectToken = some raw := by
    cases hcase : req.subjectToken with
    | none => simp [hcase] at hraw
    | some raw' => simpa [hcase] using hraw
  refine hC.pass (each_authenticateMachine _ _ _) hs fun actingClient t₁ h₁ hi₁ => ?_
  refine .bindFailIf fun _ => .bindFailIf fun _ => ?_
  refine .seq (ensures_acceptSubject hC hi₁ raw) ?_
  rintro claims t₂ ⟨h₂, hi₂, rfl, hverified⟩
  unfold exchangeFor
  rw [if_neg (by simpa using hnamed)]
  refine hC.readOr hi₂ fun target t₃ h₃ hi₃ hresolved => ?_
  unfold handleViaRegistry
  refine hC.pass (each_isFrontedBrokerExchange _ _ _) hi₃ fun fronted t₄ h₄ hi₄ => ?_
  refine .bindOfExcept fun _ _ => ?_
  have h₁₂ := C.rely_trans h₁ h₂
  exact h claims target t₄ (C.rely_trans h₁₂ (C.rely_trans h₃ h₄)) hi₄ hsubject
    ((hverified.after h₁).trans (C.rely_trans h₃ h₄)) ((hresolved.after h₁₂).trans h₄)

/-! ### The branch and its scopes -/

theorem ensures_resolveSourceForFronting (hs : C.inv s) (env : Env) (audience : List String) :
    Ensures C i (fun r t => C.rely i s t ∧ C.inv t ∧ ∀ src ∈ r, src.isMint = true ∧
      ∃ aud ∈ audience, Between C i s t fun u => ResourceRegistry.resolve aud u = .ok src)
      (resolveSourceForFronting env audience) s := by
  induction audience generalizing s with
  | nil => exact ⟨C.rely_refl i s, hs, by simp⟩
  | cons aud rest ih =>
    -- what a later entry gives, given that `s` has become `t` meanwhile
    have hlater : ∀ t, C.rely i s t → C.inv t →
        Ensures C i (fun r t' => C.rely i s t' ∧ C.inv t' ∧ ∀ src ∈ r, src.isMint = true ∧
          ∃ aud' ∈ aud :: rest, Between C i s t' fun u => ResourceRegistry.resolve aud' u = .ok src)
          (resolveSourceForFronting env rest) t := by
      intro t hst ht
      refine .mono (ih ht) ?_
      rintro r t' ⟨htt', ht', hr⟩
      refine ⟨C.rely_trans hst htt', ht', fun src hsrc => ?_⟩
      obtain ⟨hmint, aud', haud', hread⟩ := hr src hsrc
      exact ⟨hmint, aud', List.mem_cons_of_mem aud haud', hread.after hst⟩
    simp only [resolveSourceForFronting]
    split
    · exact hlater s (C.rely_refl i s) hs
    · refine .bind (hC.attempt_fetch hs fun r hr t hst ht => ?_)
      cases r with
      | error e => exact hlater t hst ht
      | ok found =>
        simp only
        split
        · rename_i hmint
          refine ⟨hst, ht, fun src hsrc => ?_⟩
          obtain rfl : found = src := Option.some.inj hsrc
          exact ⟨hmint, aud, List.mem_cons_self, .here hs hst (attempt_ok hr)⟩
        · exact hlater t hst ht

/-- The fronting link that governs an exchange: from the Mint resource that the subject token's
audience names to the target, as read between two worlds. -/
structure FrontedBy (C : Contract ReqID World) (i : ReqID) (s t : World)
    (claims : AccessTokenClaims)
    (target : Resource) (f : Fronting) : Prop where
  mint : f.source.isMint = true
  source : ∃ aud ∈ claims.audience,
    Between C i s t fun u => ResourceRegistry.resolve aud u = .ok f.source
  link : Between C i s t fun u => FrontingLinkStore.get f.source.slug target.slug u = .ok f.link

theorem ensures_mintFronting (hs : C.inv s) (target : Resource) (source : Option Resource) :
    Ensures C i (fun r t => C.rely i s t ∧ C.inv t ∧ ∀ f ∈ r, source = some f.source ∧
      Between C i s t fun u => FrontingLinkStore.get f.source.slug target.slug u = .ok f.link)
      (mintFronting target source) s := by
  have hnone : C.rely i s s ∧ C.inv s ∧ ∀ f ∈ (none : Option Fronting), source = some f.source ∧
      Between C i s s fun u => FrontingLinkStore.get f.source.slug target.slug u = .ok f.link :=
    ⟨C.rely_refl i s, hs, by simp⟩
  cases source with
  | none => exact hnone
  | some src =>
    simp only [mintFronting]
    split
    · exact hnone
    · refine .bind (hC.attempt_fetch hs fun r hr t hst ht => ?_)
      cases r with
      | error e =>
        simp only
        split
        · exact ⟨hst, ht, by simp⟩
        · trivial
      | ok link =>
        refine ⟨hst, ht, fun f hf => ?_⟩
        by_cases hmint : target.isMint = true
        · obtain rfl : (⟨src, link⟩ : Fronting) = f := by simpa [hmint] using hf
          exact ⟨rfl, .here hs hst (attempt_ok hr)⟩
        · simp [hmint] at hf

/-- How the scope parameter of a Mint exchange was authorised, by a grant read in the world `u`
where there is one. -/
inductive ScopeGranted (env : Env) (req : TokenExchangeRequest) (claims : AccessTokenClaims)
    (target : Resource) (u : World) : Option Fronting → String → Prop
  | fronted {f : Fronting} {scope : String} (h : frontedScope env req claims target f = .ok scope) :
      ScopeGranted env req claims target u (some f) scope
  | selfExchange {scope : String} (hself : isSelfExchange env req claims = true)
      (hceiling : enforceSubjectScopeCeiling req.scope claims = .ok ())
      (h : defaultedScope env req none claims target .selfExchange = .ok scope) :
      ScopeGranted env req claims target u none scope
  | consented {g : ConsentGrant} {scope : String} (hself : isSelfExchange env req claims = false)
      (hallowed : crossClientAllowed req claims target = true)
      (hceiling : enforceSubjectScopeCeiling req.scope claims = .ok ())
      (hget : ConsentGrantStore.get claims.subject claims.clientID target.id u = .ok (some g))
      (h : defaultedScope env req (some g) claims target .consentGrant = .ok scope)
      (hcovered : ∀ sc ∈ Text.fields scope, sc ∈ g.scopes) :
      ScopeGranted env req claims target u none scope

variable {scope : String}

omit hC in
theorem ScopeGranted.of_quiet {w u : World} {fronting : Option Fronting}
    (hu : w.Quiet u) (h : ScopeGranted env req claims target u fronting scope) :
    ScopeGranted env req claims target w fronting scope := by
  obtain ⟨_, _, _, -, rfl⟩ := hu
  cases h with
  | fronted h => exact .fronted h
  | selfExchange hself hceiling h => exact .selfExchange hself hceiling h
  | consented hself hallowed hceiling hget h hcovered =>
    exact .consented hself hallowed hceiling hget h hcovered

theorem ensures_consentGate (hs : C.inv s) (hself : isSelfExchange env req claims = false)
    (hceiling : enforceSubjectScopeCeiling req.scope claims = .ok ()) :
    Ensures C i (fun scope t => C.rely i s t ∧ C.inv t ∧
      Between C i s t fun u => ScopeGranted env req claims target u none scope)
      (consentGate env req claims target) s := by
  unfold consentGate
  refine .bindFailIf fun hallowed => ?_
  refine .bind (ensures_wrapErr (hC.fetch hs fun found hfound t hst ht => ?_))
  refine Ensures.bindOfExcept fun grant hgrant => ?_
  obtain rfl : found = some grant := by
    cases found with
    | none => cases hgrant
    | some g => simpa using hgrant
  refine .bindOfExcept fun scope hscope => ?_
  refine .bindFailIf fun hmissing => ?_
  have hnil : scopesNotConsented grant (Text.fields scope) = [] := by simpa using hmissing
  exact ⟨hst, ht, .here hs hst (.consented hself (by simpa using hallowed) hceiling hfound hscope
    (scopesNotConsented_eq_nil.mp hnil))⟩

theorem ensures_authorizeScope (hs : C.inv s) (env : Env)
    (req : TokenExchangeRequest) (claims : AccessTokenClaims) (fronting : Option Fronting) :
    Ensures C i (fun scope t => C.rely i s t ∧ C.inv t ∧
      Between C i s t fun u => ScopeGranted env req claims target u fronting scope)
      (authorizeScope env req claims target fronting) s := by
  have hrefl := C.rely_refl i s
  cases fronting with
  | some f =>
    exact .ofExcept fun scope hscope => ⟨hrefl, hs, .here hs hrefl (.fronted hscope)⟩
  | none =>
    unfold authorizeScope
    refine .bindOfExcept fun _ hceiling => ?_
    split
    · rename_i hself
      exact .ofExcept fun scope hscope =>
        ⟨hrefl, hs, .here hs hrefl (.selfExchange hself hceiling hscope)⟩
    · rename_i hself
      exact ensures_consentGate hC hs (by simpa using hself) hceiling

/-- **The way to the mint.** Everything `dispatchMint` does before it issues a token is quiet, and
establishes that the operator allows the caller, the branch and the scope. -/
theorem ensures_dispatchMint (hs : C.inv s)
    (h : ∀ fronting scope jkt act agent now t, C.rely i s t → C.inv t →
      operatorAllowsClient target.policy.exchangeAllowedClientIDs req.clientID = true →
      (∀ f ∈ fronting, FrontedBy C i s t claims target f) →
      (Between C i s t fun u => ScopeGranted env req claims target u fronting scope) →
      Ensures C i Q
      (mintAndRelease env i claims target (fronting.isNone && !isSelfExchange env req claims)
        (gateOf env req claims target fronting) scope
        (mintRequest env req claims target fronting scope jkt act agent now)) t) :
    Ensures C i Q (dispatchMint env i req claims target) s := by
  unfold dispatchMint
  refine .bindFailIf fun hoperator => ?_
  refine .seq (ensures_resolveSourceForFronting hC hs env claims.audience) ?_
  rintro source t₁ ⟨h₁, hi₁, hsource⟩
  refine .seq (ensures_mintFronting hC hi₁ target source) ?_
  rintro fronting t₂ ⟨h₂, hi₂, hlink⟩
  refine .seq (ensures_authorizeScope hC hi₂ env req claims fronting) ?_
  rintro scope t₃ ⟨h₃, hi₃, hgranted⟩
  refine hC.pass (each_verifyActor _ _) hi₃ fun actor t₄ h₄ hi₄ => ?_
  refine hC.pass (each_mintAct _ _ _ _) hi₄ fun act t₅ h₅ hi₅ => ?_
  refine hC.pass (each_checkDepth _ _) hi₅ fun _ t₆ h₆ hi₆ => ?_
  refine hC.pass (each_exchangeThumbprint _ _ _) hi₆ fun jkt t₇ h₇ hi₇ => ?_
  refine hC.pass (each_extractAgentIdentityClaims _ _ _) hi₇ fun agent t₈ h₈ hi₈ => ?_
  refine hC.pass each_timeNow hi₈ fun now t₉ h₉ hi₉ => ?_
  have h₃₉ : C.rely i t₃ t₉ := C.rely_trans h₄ (C.rely_trans h₅ (C.rely_trans h₆
    (C.rely_trans h₇ (C.rely_trans h₈ h₉))))
  have h₂₉ := C.rely_trans h₃ h₃₉
  have h₁₂ := C.rely_trans h₁ h₂
  refine h fronting scope jkt (actClaimToMap act) agent now t₉ (C.rely_trans h₁₂ h₂₉) hi₉
    (by simpa using hoperator) (fun f hf => ?_) ((hgranted.after h₁₂).trans h₃₉)
  obtain ⟨hsrc, hread⟩ := hlink f hf
  obtain ⟨hmint, aud, haud, hresolved⟩ := hsource f.source hsrc
  exact ⟨hmint, ⟨aud, haud, hresolved.trans (C.rely_trans h₂ h₂₉)⟩, (hread.after h₁).trans h₂₉⟩

/-! ### Looking again -/

def SubjectStands (claims : AccessTokenClaims) (u : World) : Prop :=
  ∀ iss, IssuanceStore.getByJTI claims.jti u = .ok (some iss) → iss.isRevoked = false

/-- The grant behind a consent-gated exchange was live in this world. -/
def GrantStands (claims : AccessTokenClaims) (target : Resource) (u : World) : Prop :=
  ∃ g, ConsentGrantStore.get claims.subject claims.clientID target.id u = .ok (some g)

theorem ensures_recheckSubject (hs : C.inv s) (claims : AccessTokenClaims) :
    Ensures C i (fun r t => C.rely i s t ∧ C.inv t ∧
      (r = none → Between C i s t (SubjectStands claims))) (recheckSubject claims) s := by
  unfold recheckSubject
  split
  · rename_i hempty
    refine ⟨C.rely_refl i s, hs, fun _ => .here hs (C.rely_refl i s) fun iss hiss => ?_⟩
    have hfound := List.find?_some (Except.ok.inj hiss)
    simp [beq_iff_eq.mp hempty] at hfound
  · refine .bind (hC.attempt_fetch hs fun r hr t hst ht => ⟨hst, ht, fun hnone => ?_⟩)
    cases r with
    | error e => cases hnone
    | ok found =>
      have hget := attempt_ok hr
      refine .here hs hst fun iss hiss => ?_
      obtain rfl : found = some iss := by
        rw [hget] at hiss
        simpa using hiss
      by_contra hrev
      simp [hrev] at hnone

theorem ensures_recheckGrant (hs : C.inv s) (claims : AccessTokenClaims) (target : Resource) :
    Ensures C i (fun r t => C.rely i s t ∧ C.inv t ∧
      (r = none → Between C i s t (GrantStands claims target))) (recheckGrant claims target) s := by
  refine .bind (hC.attempt_fetch hs fun r hr t hst ht => ⟨hst, ht, fun hnone => ?_⟩)
  cases r with
  | error e => cases hnone
  | ok found =>
    cases found with
    | none => cases hnone
    | some g => exact .here hs hst ⟨g, attempt_ok hr⟩

variable {consentGated : Bool}

/-- **The re-check.** It passes only if the subject token's row stood and, for a consent-gated
exchange, the grant was still live; otherwise the row just minted is revoked and the exchange
refused. -/
theorem ensures_refuseIfRevokedSinceCheck {id : String}
    {g : Unit → Svc α} {Q : α → World → Prop} (hs : C.inv s)
      (hrevoke : ∀ t, C.rely i s t → C.inv t →
      C.inv (IssuanceStore.revoke id t).2 ∧ C.guar i t (IssuanceStore.revoke id t).2)
    (h : ∀ t, C.rely i s t → C.inv t → Between C i s t (SubjectStands claims) →
      (consentGated = true → Between C i s t (GrantStands claims target)) →
        Ensures C i Q (g ()) t) :
    Ensures C i Q (refuseIfRevokedSinceCheck claims target consentGated id >>= g) s := by
  have hrefused : ∀ (e : Err) t, C.rely i s t → C.inv t →
      Ensures C i Q ((do
        let _ ← (store (IssuanceStore.revoke id)).attempt
        Prog.fail e : Svc Unit) >>= g) t := by
    intro e t hst ht
    refine .bind (Safe.bind (Ensures.attempt_exec (fun _ => hrevoke t hst ht) ?_ ?_))
    · exact fun _ _ _ _ => trivial
    · exact fun _ _ _ _ => trivial
  unfold refuseIfRevokedSinceCheck
  rw [Prog.bind_assoc]
  refine .bind ?_
  unfold recheck
  refine Ensures.seq (ensures_recheckSubject hC hs claims) ?_
  rintro r t₁ ⟨h₁, hi₁, hsubject⟩
  cases r with
  | some e => exact hrefused e t₁ h₁ hi₁
  | none =>
    simp only
    split
    · refine Ensures.mono (ensures_recheckGrant hC hi₁ claims target) ?_
      rintro r t₂ ⟨h₂, hi₂, hgrant⟩
      have h₁₂ := C.rely_trans h₁ h₂
      cases r with
      | some e => exact hrefused e t₂ h₁₂ hi₂
      | none => exact h t₂ h₁₂ hi₂ ((hsubject rfl).trans h₂) fun _ => (hgrant rfl).after h₁
    · rename_i hgated
      exact h t₁ h₁ hi₁ (hsubject rfl) fun hg => absurd hg hgated

/-! ### Handing the token out, alone -/

omit hC

theorem fields_join_fields (s : String) : Text.fields (Text.join (Text.fields s)) = Text.fields s :=
  Text.fields_join_of_words fun _ h => Text.word_of_mem_fields h

theorem ensures_release {c : AccessTokenClaims} {e : Event} :
    Ensures (solo i faulty) i (fun _ t => t.journal.head? = some ⟨i, e⟩) (release i c e) s := by
  refine safe_step fun _ => ⟨trivial, fun h => absurd rfl h, fun t hst _ => ?_⟩
  obtain ⟨_, _, _, -, rfl⟩ := hst rfl
  rfl

/-- What is handed out carries the scopes asked of the issuer, and the exchange is the last thing on
record. -/
theorem ensures_mintAndRelease {gate : Gate}
    {request : IssueRequest} :
    Ensures (solo i faulty) i (fun resp t => ∃ c, resp.accessToken = .minted c ∧
      c.scope = Text.join request.scopes ∧
      t.journal.head? = some ⟨i, .exchanged claims.jti c.jti gate⟩)
      (mintAndRelease env i claims target consentGated gate scope request) s := by
  have hC := tolerant_solo i faulty
  unfold mintAndRelease
  refine MintIssuer.ensures_issue hC trivial fun now jti t₁ _ _ _ _ _ => ?_
  have hrecord : Ensures (solo i faulty) i (fun _ _ => True)
      (MintIssuer.recordIssuance i request now jti) t₁ := by
    cases hres : request.resource with
    | none => simp [MintIssuer.recordIssuance, hres, Ensures, Safe, pure]
    | some r =>
      simp only [MintIssuer.recordIssuance, hres]
      exact ensures_wrapErr (Ensures.exec (fun _ => ⟨trivial, fun h => absurd rfl h⟩)
        fun _ _ _ _ _ _ => trivial)
  refine .seq hrecord fun _ t₂ _ => ?_
  refine ensures_refuseIfRevokedSinceCheck hC trivial
    (fun _ _ _ => ⟨trivial, fun h => absurd rfl h⟩) fun t₃ _ _ _ _ => ?_
  exact .seq ensures_release fun _ t₄ hlast => ⟨_, rfl, rfl, hlast⟩

end TokenExchange

end AuthServer
