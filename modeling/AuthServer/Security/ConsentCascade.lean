import AuthServer.Security.CascadeContract
import AuthServer.Service.Serve
import AuthServer.Service.TokenRules

/-!
# Revoking consent while tokens are being minted

Exchanges for Mint resources, refreshes and revocations of consent, each kept to the contract of
`CascadeContract`, under any interleaving of their store calls.

An exchange may be in any of four places when the cascade of a grant runs. Before its row is
written, it finds the subject token revoked or the grant gone when it looks again. After, its row is
in the lineage and is revoked with the rest. A token minted from it in turn is in the same position,
because only a token that is out can be presented.
-/

namespace AuthServer

open Interleave Table

namespace ConsentCascade

variable {env : Env} {w : World} {own : String → Prop} {u v : World} {T : Consent} {i : ReqID}

/-! ### An exchange -/

section Exchange

open TokenExchange

variable {s : World} {req : TokenExchangeRequest} {claims : AccessTokenClaims} {target : Resource}

/-- The re-check found the subject token standing, so it is not derived from a consent whose cascade
had run. -/
theorem not_derived_of_stands {s₁ t : World}
    (hsubject : Between (contract env w) i s₁ t (SubjectStands claims))
    (hout : Out s₁ claims.jti) (hne : claims.jti ≠ "") (hT : s₁.Happened T.cascaded)
    (hsince : ¬Since s₁ t T.cascaded) : ¬Derived T t claims.jti := by
  intro hd
  obtain ⟨u, hu, hsu, hut, hstands⟩ := hsubject
  have hderived := hut.derived_before hu hd (fun h => hsince (h.after hsu.history))
    (known_of_out (hsu.released _ hout))
  obtain ⟨row, hget, hrevoked⟩ := (hu.settled T (hsu.history.happened hT) _ hderived
    (hsu.released _ hout)).getByJTI hu.unique hne
  rw [hstands row hget] at hrevoked
  cases hrevoked

/-- The re-check found the grant live, so its cascade had not run. -/
theorem not_cascaded_of_grant {s₁ t : World}
    (hgrant : Between (contract env w) i s₁ t (GrantStands claims target)) :
    ¬s₁.Happened (Consent.cascaded ⟨claims.subject, claims.clientID, target.id⟩) := by
  intro hT
  obtain ⟨u, hu, hsu, hut, g, hget⟩ := hgrant
  have hfind := Except.ok.inj hget
  have hfound := List.find?_some hfind
  simp only [ConsentGrantStore.isFor, Bool.and_eq_true, beq_iff_eq,
    Option.isNone_iff_eq_none] at hfound
  have hdead := hu.dead _ (hsu.history.happened hT) g (List.mem_of_find?_eq_some hfind)
    (by simp [Consent.ofGrant, hfound.1.1.1, hfound.1.1.2, hfound.1.2])
  rw [hfound.2] at hdead
  cases hdead

/-- **Mint, look again, hand out.** -/
theorem ensures_mintAndRelease {consentGated : Bool} {gate : Gate} {scope : String}
    {request : IssueRequest} (hs : Inv env w s) (hout : Out s claims.jti)
    (hresource : request.resource = some target) (hparent : request.parentJTI = claims.jti)
    (hgate : ∀ T : Consent, gate = T.gate →
      consentGated = true ∧ T = ⟨claims.subject, claims.clientID, target.id⟩ ∧
        request.subjectUserID = claims.subject ∧ request.consentClientID = claims.clientID) :
    Ensures (contract env w) i (fun resp t => ∀ c, resp.accessToken = .minted c → Out t c.jti)
      (mintAndRelease env i claims target consentGated gate scope request) s := by
  have hC := tolerant env w i
  unfold mintAndRelease
  refine MintIssuer.ensures_issue hC hs fun now jti t₁ h₁ hi₁ hdrawn _ hjti => ?_
  have hmine := mine_of_drawn hdrawn
  have hout₁ := h₁.released _ hout
  simp only [MintIssuer.recordIssuance, hresource]
  set row := MintIssuer.issuanceRow request target now jti with hrow
  have hrowParent : row.parentJTI = claims.jti := hparent
  have hnotPending : ¬Pending env w t₁ row.parentJTI := by
    rw [hrowParent]
    exact fun hp => hp.2 hout₁
  have hstep := contract_insert hi₁ hmine.own hmine.pending hmine.drawn hnotPending hjti
  refine .bind (ensures_wrapErr (Ensures.exec (fun _ => hstep) fun _ hok _ t₂ h₂ hi₂ => ?_))
  rw [written_of_ok hok] at h₂ hstep
  refine ensures_refuseIfRevokedSinceCheck hC hi₂ (fun t _ hit => ?_)
    fun t₃ h₃ hi₃ hsubject hgrant => ?_
  · exact (contract_plain hit (plain_run env (x := .revokeIssuance jti) trivial i t)).imp id
      And.left
  · have h₂₃ : Moves env w (Own env i) (written i row t₁) t₃ := h₂.trans h₃
    have hmine₁ : Mine env w i row.jti (written i row t₁) := ⟨hmine.own, hmine.pending, hmine.drawn⟩
    have hmine₃ := hmine₁.rely h₂₃
    have hout₃ : Out t₃ claims.jti := h₂₃.released _ hout₁
    have hannounces : Announces (.exchanged claims.jti jti gate) jti := .inr ⟨_, _, rfl⟩
    refine .bind (safe_step fun _ => ?_)
    obtain ⟨hinv, hguar⟩ := contract_release (c := MintIssuer.claims env request now jti)
      (e := .exchanged claims.jti jti gate) hi₃ hmine₃.own hmine₃.pending hmine₃.drawn hannounces
      (fun T hclient parent jti' heq => by
        obtain ⟨-, -, rfl⟩ := Event.exchanged.inj heq
        obtain ⟨-, rfl, hsubjectID, hconsentID⟩ := hgate T rfl
        have hroot : Consent.isRoot ⟨claims.subject, claims.clientID, target.id⟩ row = true := by
          have hclient : claims.clientID ≠ "" := hclient
          simp [Consent.isRoot, IssuanceStore.isRoot, IssuanceStore.isMintRow, hrow,
            MintIssuer.issuanceRow, hsubjectID, hconsentID, hclient, hjti]
        exact root_mono ⟨row, List.mem_append_right _ List.mem_cons_self, rfl, hroot⟩ h₂₃.rows)
      fun T hT hd => revoked_at_release hstep.1 hi₃ h₂₃ hmine₁ hjti rfl
        (fun _ => hrowParent ▸ hout₃)
        hannounces
        (fun T hne hT hsince => hrowParent ▸ not_derived_of_stands (hsubject.after h₂)
          (hrowParent ▸ hout₁) (hrowParent ▸ hne) hT hsince)
        (fun T hT parent jti' heq => by
          obtain ⟨-, -, rfl⟩ := Event.exchanged.inj heq
          obtain ⟨hgated, rfl, -, -⟩ := hgate T rfl
          exact not_cascaded_of_grant ((hgrant hgated).after h₂) hT)
        hT hd
    refine ⟨hinv, hguar, fun t₄ h₄ _ c hc => ?_⟩
    obtain rfl := IssuedToken.minted.inj hc
    exact h₄.released _ (out_handOut.mpr (.inl rfl))

/-- **An exchange for a Mint resource.** -/
theorem ensures_exchange (hs : Inv env w s) (hnamed : req.resource ≠ "")
    (hmint : ∀ target, ResourceRegistry.resolve req.resource w = .ok target →
      target.isMint = true) :
    Ensures (contract env w) i (fun resp t => ∀ c, resp.accessToken = .minted c → Out t c.jti)
      (exchange env i req) s := by
  have hC := tolerant env w i
  refine TokenExchange.ensures_exchange hC hs hnamed
    fun claims target t₁ h₁ hi₁ _ hverified hresolved => ?_
  have hout : Out t₁ claims.jti := by
    obtain ⟨u, -, -, hut, hverified⟩ := hverified
    exact hut.released _ ⟨claims, (verifyAccessToken_ok hverified).2.1, rfl⟩
  have hkind : target.backendKind = .mint := by
    obtain ⟨u, hu, -, -, hresolved⟩ := hresolved
    have hsame : ResourceRegistry.resolve req.resource u =
      ResourceRegistry.resolve req.resource w := by
      simp only [ResourceRegistry.resolve, ResourceStore.resolve, hu.resources]
    simpa [Resource.isMint] using hmint target (hsame ▸ hresolved)
  simp only [dispatch, hkind]
  refine ensures_dispatchMint hC hi₁ fun fronting scope jkt act agent now t₂ h₂ hi₂ _ _ _ => ?_
  refine ensures_mintAndRelease hi₂ (h₂.released _ hout) rfl rfl fun T hT => ?_
  cases fronting with
  | some f => cases hT
  | none =>
    simp only [gateOf] at hT
    split at hT
    · cases hT
    · rename_i hself
      obtain ⟨h₁, h₂, h₃⟩ := Gate.consent.inj hT
      exact ⟨by simp [hself], by cases T; simp_all, rfl, rfl⟩

end Exchange

/-! ### A revocation -/

section Revocation

variable {s : World}

theorem plain_of_familyCascade (h : Uses env i Write.ofFamilyCascade u v) : Plain u v := by
  rcases h with hquiet | ⟨x, hx, rfl⟩
  · exact plain_of_quiet hquiet
  · refine plain_run env ?_ i u
    cases x <;> first | exact hx.elim | trivial

theorem find_grant {g : ConsentGrant} (hids : UniqueKey (fun g => some g.id) w.consentGrants)
    (hg : g ∈ w.consentGrants) (hmoves : Moves env w own w u) {found : Option ConsentGrant}
    (hfound : ConsentGrantStore.getByID g.id u = .ok found) :
    ∃ g' ∈ u.consentGrants, found = some g' ∧ g'.id = g.id ∧
      Consent.ofGrant g' = Consent.ofGrant g := by
  obtain ⟨f, hf, hgrants⟩ := hmoves.grants
  have hmem : f g ∈ u.consentGrants := by
    rw [hgrants]
    exact List.mem_map_of_mem hg
  cases hfind : u.consentGrants.find? (·.id == g.id) with
  | none =>
    have hmiss := List.find?_eq_none.mp hfind (f g) hmem
    simp [(hf g).id_eq] at hmiss
  | some g' =>
    have hid : g'.id = g.id := by simpa using List.find?_some hfind
    have hmem' := List.mem_of_find?_eq_some hfind
    refine ⟨g', hmem', ?_, hid, ?_⟩
    · rw [← Except.ok.inj hfound, hfind]
    · rw [hgrants] at hmem'
      obtain ⟨g₀, hg₀, rfl⟩ := List.mem_map.mp hmem'
      rw [(hf g₀).id_eq] at hid
      rw [hids g₀ hg₀ g hg g.id (congrArg some hid) rfl]
      exact (hf g).ofGrant_eq

theorem dead_of_revoked {g : ConsentGrant} {s₁ t : World} (hu : Inv env w u)
    (hg : g ∈ u.consentGrants)
    (hus : Moves env w own u s₁) (hst : Moves env w own (ConsentGrantStore.revoke g.id s₁).2 t) :
    ∀ g' ∈ t.consentGrants, Consent.ofGrant g' = Consent.ofGrant g →
      g'.revokedAt.isSome = true := by
  obtain ⟨f, hf, hgrants⟩ := hus.grants
  obtain ⟨f', hf', hgrants'⟩ := hst.grants
  refine dead_of_grants hf' hgrants' fun g₁ hg₁ hT => ?_
  obtain ⟨g₀, hg₀, rfl⟩ := mem_updateWhere.mp hg₁
  rw [hgrants] at hg₀
  obtain ⟨g₂, hg₂, rfl⟩ := List.mem_map.mp hg₀
  have hsame : Consent.ofGrant (f g₂) = Consent.ofGrant g := by
    rw [← hT]
    split <;> rfl
  obtain rfl := hu.consents g₂ hg₂ g hg _ (congrArg some ((hf g₂).ofGrant_eq.symm.trans hsame)) rfl
  rw [if_pos (beq_iff_eq.mpr (hf g₂).id_eq)]
  rfl

/-- **A revocation.** When it is done, the cascade of the grant has run. -/
theorem ensures_revokeConsent {id : String} (hids : UniqueKey (fun g => some g.id) w.consentGrants)
    (hws : Moves env w (Own env i) w s) (hs : Inv env w s) :
    Ensures (contract env w) i (fun _ t => ∀ g ∈ w.consentGrants, g.id = id →
      t.Happened (Consent.ofGrant g).cascaded) (GrantAdminService.revokeConsent i id) s := by
  have hC := tolerant env w i
  unfold GrantAdminService.revokeConsent
  refine .bindFailIf fun _ => ?_
  refine hC.readWrapped hs fun found t₁ h₁ hi₁ hfound => ?_
  obtain ⟨u, hu, hsu, hut, hread⟩ := hfound
  have hrevoke := contract_plain (i := i) hi₁ (plain_run env (x := .revokeGrant id) trivial i t₁)
  refine .bind (ensures_wrapErr (Ensures.exec (fun _ => ⟨hrevoke.1, hrevoke.2.1⟩)
    fun _ _ _ t₂ h₂ hi₂ => ?_))
  have hfamilies : ∀ (T : Consent) (n : Except Err ℕ) t, Inv env w t → t.Happened T.cascaded →
      Ensures (contract env w) i (fun _ t => t.Happened T.cascaded)
        (do let f ← GrantAdminService.revokeRefreshFamilies i T.userID T.clientID T.resourceID
            pure (⟨n.toOption.getD 0, !n.isOk, f.1, f.2.isSome⟩ :
              GrantAdminService.RevokeConsentReport)) t := by
    intro T n t hit hT
    have huses : (GrantAdminService.revokeRefreshFamilies i T.userID T.clientID T.resourceID).Each
        (Uses env i Write.ofFamilyCascade) := GrantAdminService.uses_revokeRefreshFamilies
    refine .pass huses (fun u v hu h => contract_plain hu (plain_of_familyCascade h)) hit
      fun _ t' ht _ => ?_
    exact ht.history.happened hT
  cases found with
  | none =>
    refine safe_pure fun g hg hid => ?_
    obtain ⟨g', -, hnone, -⟩ := find_grant hids hg (hws.trans hsu) (hid ▸ hread)
    cases hnone
  | some g' =>
    have hfind := Except.ok.inj hread
    have hid' : g'.id = id := by simpa using List.find?_some hfind
    have hdead : ∀ g ∈ t₂.consentGrants, Consent.ofGrant g = Consent.ofGrant g' →
        g.revokedAt.isSome = true :=
      dead_of_revoked hu (List.mem_of_find?_eq_some hfind) hut (hid' ▸ h₂)
    obtain ⟨hinv, hguar⟩ := contract_cascade (i := i) hi₂ hdead
    refine .bind (Ensures.attempt_exec (fun _ => ⟨hinv, hguar⟩) (fun _ t₃ h₃ hi₃ => ?_)
      fun hfault => hfault.elim)
    have hT : (cascade i (Consent.ofGrant g') t₂).Happened (Consent.ofGrant g').cascaded :=
      ⟨i, List.mem_cons_self⟩
    refine Ensures.mono (hfamilies (Consent.ofGrant g') _ t₃ hi₃ (h₃.history.happened hT))
      fun _ t hcascaded g hg hid => ?_
    obtain ⟨g'', -, heq, -, hsame⟩ := find_grant hids hg (hws.trans hsu) (hid ▸ hread)
    obtain rfl := Option.some.inj heq
    rwa [← hsame]

end Revocation

/-! ### A refresh -/

section Refresh

open TokenService

variable {s : World}

theorem each_runReuseHalves (env : Env) (familyID : String) :
    (runReuseHalves i familyID).Each Plain :=
  (Prog.each_exec fun t => plain_run env (x := .revokeFamily _) trivial i t).attempt.bind fun _ =>
    (Prog.each_exec fun t =>
      plain_run env (x := .denylistFamily _) trivial i t).attempt.bind fun _ =>
    Prog.each_pure _

theorem ensures_storeSuccessor {family : Family} {scope : String} {resp : IssueResponse}
    {now expiry : Time} (hs : Inv env w s) (hjti : resp.accessToken.jti = resp.issuanceID)
    (hmine : Mine env w i resp.issuanceID s)
    (hsettled : ∀ t f, Moves env w (Own env i) s t → Inv env w t → ∀ T : Consent,
      t.Happened T.cascaded →
      Derived T (handOut i resp.accessToken (.refreshed f resp.issuanceID) t) resp.accessToken.jti →
      Revoked t resp.accessToken.jti) :
    Ensures (contract env w) i (fun r t => Out t r.accessToken.jti)
      (storeSuccessor env i family scope resp now expiry) s := by
  have hC := tolerant env w i
  unfold storeSuccessor
  have htrack : (trackJTI resp.issuanceID family.id expiry).Each Plain :=
    (Prog.each_exec fun t => plain_run env (x := .trackJTI _ _ _) trivial i t).attempt.bind
      fun _ => Prog.each_pure _
  refine .pass htrack (fun u v hu h => contract_plain hu h) hs fun _ t₁ h₁ hi₁ => ?_
  have hrecheck : (recheckFamily family.id resp.issuanceID).Each Plain := by
    refine (each_wrapErr (Prog.each_query fun u => plain_of_quiet (.refl u))).bind fun f =>
      each_ite trivial ?_
    exact (Prog.each_exec fun t => plain_run env (x := .revokeIssuance _) trivial i t).attempt.bind
      fun _ => trivial
  refine .pass hrecheck (fun u v hu h => contract_plain hu h) hi₁ fun f t₂ h₂ hi₂ => ?_
  have hcreate :
    (store (createRefreshToken env i f.id now env.tokens.refreshTokenExpiry)).Each Plain :=
    Prog.each_exec fun t => plain_run env (x := .createRefreshToken _ _ _) trivial i t
  refine .pass hcreate (fun u v hu h => contract_plain hu h) hi₂ fun _ t₃ h₃ hi₃ => ?_
  have hst : Moves env w (Own env i) s t₃ := h₁.trans (h₂.trans h₃)
  have hmine₃ := hmine.rely hst
  rw [← hjti] at hmine₃
  obtain ⟨hinv, hguar⟩ :=
    contract_release (c := resp.accessToken) (e := .refreshed f.id resp.issuanceID)
    hi₃ hmine₃.own hmine₃.pending hmine₃.drawn (.inl trivial) (fun _ _ _ _ heq => by cases heq)
    (hsettled t₃ f.id hst hi₃)
  exact .bind (safe_step fun _ => ⟨hinv, hguar, fun t₄ h₄ _ =>
    h₄.released _ (out_handOut.mpr (.inl rfl))⟩)

/-- **A refresh.** -/
theorem ensures_refreshToken {req : RefreshTokenRequest} (hs : Inv env w s) :
    Ensures (contract env w) i (fun r t => Out t r.accessToken.jti) (refreshToken env i req) s := by
  have hC := tolerant env w i
  refine TokenService.ensures_refreshToken hC hs fun rt family c scope t₁ _ hi₁ _ => ?_
  obtain ⟨hinv, hguar, -⟩ := contract_plain (i := i) hi₁
    (plain_run env (x := .consumeRefreshToken rt.id) trivial i t₁)
  refine ensures_consumeOrRevokeFamily ⟨hinv, hguar⟩ (fun t _ hit => ?_) fun _ _ t₂ _ hi₂ => ?_
  · exact .of_each (each_runReuseHalves env _) (fun u v hu h => contract_plain hu h) hit
      (fun _ _ _ _ => trivial) fun _ _ _ _ => trivial
  refine ensures_rotate hC hi₂ fun jkt now res now' jti t₃ _ hi₃ _ hdrawn _ hjti => ?_
  have hmine := mine_of_drawn hdrawn
  have hnew := no_row_of_drawn hdrawn
  cases res with
  | none =>
    -- no row is written, so the token is derived from nothing
    refine ensures_storeSuccessor hi₃ rfl hmine fun t f ht hit T _ hd => ?_
    obtain ⟨row, hrow, hrowJTI, -⟩ := exists_row_of_reaches hd.reaches
    obtain ⟨row₀, hrow₀, hlater⟩ := ht.row_before hrow fun _ => hrowJTI ▸ hmine.own
    exact absurd (hlater.jti_eq.symm.trans hrowJTI) (hnew row₀ hrow₀)
  | some r =>
    set request := mintRequest now (now + env.tokens.accessTokenExpiry)
      (refreshParams env family c scope jkt) (some r) with hrequest
    have hresource : request.resource = some r := rfl
    simp only [MintIssuer.recordIssuance, hresource]
    set row := MintIssuer.issuanceRow request r now' jti with hrow
    have hparent : row.parentJTI = "" := rfl
    have hnotPending : ¬Pending env w t₃ row.parentJTI := by
      rintro ⟨⟨j, n, -, heq⟩, -⟩
      exact env.random_ne_empty j n (heq.symm.trans hparent)
    have hstep := contract_insert hi₃ hmine.own hmine.pending hmine.drawn hnotPending hjti
    refine .bind (ensures_wrapErr (Ensures.exec (fun _ => hstep) fun _ hok _ t₄ h₄ hi₄ => ?_))
    have hwritten := written_of_ok hok
    rw [hwritten] at h₄ hstep
    have hmine₃ : Mine env w i row.jti (written i row t₃) := ⟨hmine.own, hmine.pending, hmine.drawn⟩
    refine ensures_storeSuccessor hi₄ rfl (hmine₃.rely h₄) fun t f ht hit T hT hd => ?_
    have hannounces : Announces (.refreshed f jti) jti := .inl trivial
    exact revoked_at_release hstep.1 hit (h₄.trans ht) hmine₃ hjti rfl
      (fun hne => absurd hparent hne) hannounces (fun _ hne => absurd hparent hne)
      (fun _ _ _ _ heq => by cases heq) hT hd

end Refresh

/-! ### Runs -/

/-- The requests of the runs: exchanges for Mint resources, refreshes and revocations of consent. -/
def TakesPart (w : World) : Request → Prop
  | .exchange req => req.resource ≠ "" ∧
      ∀ target, ResourceRegistry.resolve req.resource w = .ok target → target.isMint = true
  | .refreshToken _ => True
  | .revokeConsent _ => True
  | _ => False

def Answered (w : World) : Request → Response → World → Prop
  | .exchange _, .exchanged r, t => ∀ c, r.accessToken = .minted c → Out t c.jti
  | .refreshToken _, .token r, t => Out t r.accessToken.jti
  | .revokeConsent id, _, t =>
    ∀ g ∈ w.consentGrants, g.id = id → t.Happened (Consent.ofGrant g).cascaded
  | _, _, _ => True

/-- The store a run starts in. Any table of issuances will do, as long as it keeps the unique
indexes of the schema and names none of the random strings that are still to be drawn. The history
starts here. -/
structure Starts (env : Env) (w : World) : Prop where
  journal : w.journal = []
  jtis : UniqueKey Issuance.key w.issuances
  grantIDs : UniqueKey (fun g => some g.id) w.consentGrants
  consents : UniqueKey (fun g => some (Consent.ofGrant g)) w.consentGrants
  clients : ∀ g ∈ w.consentGrants, g.clientID ≠ ""
  fresh : ∀ row ∈ w.issuances, ¬Undrawn env w row.jti ∧ ¬Undrawn env w row.parentJTI
  released : ∀ c ∈ w.released, ¬Undrawn env w c.jti

theorem Starts.inv (h : Starts env w) : Inv env w w := by
  have hnone : ∀ e, ¬w.Happened e := by
    rintro e ⟨ctx, hctx⟩
    rw [h.journal] at hctx
    cases hctx
  exact
    { resources := rfl
      drawn := fun _ => le_rfl
      unique := h.jtis
      fresh := fun row hrow => (h.fresh row hrow).1
      out := h.released
      parents := fun row hrow hp => (h.fresh row hrow).2 hp.1
      consents := h.consents
      exchanged := fun _ _ _ he => (hnone _ he).elim
      gated := fun _ _ _ ⟨_, he⟩ => (hnone _ he).elim
      dead := fun _ hT => (hnone _ hT).elim
      settled := fun _ hT => (hnone _ hT).elim }

theorem safe_serve {s : World}
    (hids : UniqueKey (fun g => some g.id) w.consentGrants) {req : Request}
    (hreq : TakesPart w req) (hws : Moves env w (Own env i) w s) (hs : Inv env w s) :
    Ensures (contract env w) i (fun resp t => Answered w req resp t) (serve env i req) s := by
  cases req with
  | exchange req => exact .bind (ensures_exchange hs hreq.1 hreq.2)
  | refreshToken req => exact .bind (ensures_refreshToken hs)
  | revokeConsent id => exact .bind (ensures_revokeConsent hids hws hs)
  | _ => exact hreq.elim

/-- Every state of a run keeps the invariant, and every request that was answered has done its part.
-/
theorem ready_exec {reqs : ReqID → Request} (hw : Starts env w) (hreqs : ∀ i, TakesPart w (reqs i))
    (sched : Schedule ReqID) (hsched : ∀ e ∈ sched, e.2 = false) :
    Pool.Ready (contract env w) (fun i resp t => Answered w (reqs i) resp t) (fun _ _ _ => True)
      ((Server.start env reqs w).exec sched) := by
  have hstart : Pool.Ready (contract env w) (fun i resp t => Answered w (reqs i) resp t)
      (fun _ _ _ => True) (Server.start env reqs w) :=
    ⟨hw.inv, fun i t hwt ht => safe_serve hw.grantIDs (hreqs i) hwt ht⟩
  refine hstart.exec sched (Pool.admitted_of_all (fun _ _ _ => trivial) sched fun e he hbad => ?_)
  rw [hsched e he] at hbad
  cases hbad

end ConsentCascade

open ConsentCascade

/-- **A revocation in the middle of an exchange is not missed.** Take any store, any number of
exchanges for Mint resources and of revocations of consent (and of refreshes besides), and any
interleaving of their store calls, with no store error. Let an exchange have returned a token, and
let the revocation of a grant be done. If the token is derived from the grant, or its consent gate
is the grant's, then its issuance row is revoked. -/
theorem TokenExchange.revocation_not_missed (env : Env) (reqs : ReqID → Request) (w : World)
    (hw : Starts env w) (hreqs : ∀ i, TakesPart w (reqs i)) (sched : Schedule ReqID)
    (hsched : ∀ e ∈ sched, e.2 = false) (i : ReqID) (req : TokenExchangeRequest)
    (hi : reqs i = .exchange req) (resp : TokenExchangeResponse) (c : AccessTokenClaims)
    (hresp : ((Server.start env reqs w).exec sched).procs i = .ret (.exchanged resp))
    (hminted : resp.accessToken = .minted c) (j : ReqID)
      (report : GrantAdminService.RevokeConsentReport)
    (g : ConsentGrant) (hg : g ∈ w.consentGrants) (hj : reqs j = .revokeConsent g.id)
    (hreport : ((Server.start env reqs w).exec sched).procs j = .ret (.report report))
    (hlineage : Derived (Consent.ofGrant g) ((Server.start env reqs w).exec sched).store c.jti ∨
      Gated (Consent.ofGrant g) ((Server.start env reqs w).exec sched).store c.jti) :
    ∃ row, IssuanceStore.getByJTI c.jti ((Server.start env reqs w).exec sched).store =
      .ok (some row) ∧ row.isRevoked = true := by
  have hready := ready_exec hw hreqs sched hsched
  set t := ((Server.start env reqs w).exec sched).store with ht
  have hout : Out t c.jti := by
    have hpost := hready.post hresp
    rw [hi] at hpost
    exact hpost c hminted
  have hcascaded : t.Happened (Consent.ofGrant g).cascaded := by
    have hpost := hready.post hreport
    rw [hj] at hpost
    exact hpost g hg rfl
  have hderived : Derived (Consent.ofGrant g) t c.jti := by
    rcases hlineage with hd | hgated
    · exact hd
    · obtain ⟨row, hrow, hjti, hroot⟩ := hready.inv.gated _ (hw.clients g hg) _ hgated
      exact hjti ▸ .root hrow hroot (.inr (hjti.symm ▸ hgated))
  exact (hready.inv.settled _ hcascaded _ hderived hout).getByJTI
    hready.inv.unique hderived.ne_empty

namespace Sample

/-- The grant of the user to the client for the service. -/
def notesGrant : ConsentGrant := ⟨"g", "user", "app", "r1", ["notes:read"], none⟩

def tokenRow (jti resourceID : String) : Issuance :=
  ⟨jti, "user", "app", resourceID, ["notes:read"], .mint, true, 900000000000, 2000000000000,
    none, jti, "", "", [], "app", ""⟩

def granted (resourceID : String) : World :=
  { world [] with
    consentGrants := [notesGrant], issuances := [tokenRow "t" resourceID]
    released := [userToken "t"] }

/-- The grant is revoked; the client exchanges its token for one for the service. -/
def revokeAndExchange : ReqID → Request
  | 0 => .revokeConsent "g"
  | _ =>
    .exchange ⟨"app", "secret", some (userToken "t"),
      tokenTypeAccessToken, none, "", "https://notes",
      "", ⟨"", "", ""⟩⟩

/-- The server after the client's token was for another resource and the exchange came last. -/
def exchangedLast : Server :=
  (Server.start Env.plain revokeAndExchange (granted "r2")).exec (turn 0 ++ turn 1)

/-- The server after the client's token was for the service and the revocation came last. -/
def revokedLast : Server :=
  (Server.start Env.plain revokeAndExchange (granted "r1")).exec (turn 1 ++ turn 0)

end Sample

open Sample in
/-- **A self-exchange asks for no consent.** The grant is revoked, and then the client exchanges a
token of its own, for another resource, for one for the service. The row of the new token is in the
lineage of the grant and is not revoked. -/
theorem TokenExchange.selfExchange_after_revocation :
    (exchangedLast.report 0).isSome = true ∧ (exchangedLast.minted 1).isSome = true ∧
      ∀ c ∈ exchangedLast.minted 1,
        c.jti ∈ IssuanceStore.lineage "user" "app" "r1" exchangedLast.store.issuances ∧
        ∃ row ∈ exchangedLast.store.issuances, row.jti = c.jti ∧ row.isRevoked = false := by
  decide +kernel

open Sample in
theorem Sample.starts_granted : Starts Env.plain (granted "r1") where
  journal := rfl
  jtis := .of_nodup (by decide)
  grantIDs := .of_nodup (by decide)
  consents := .of_nodup (by decide)
  clients := by decide
  fresh := by
    intro row hrow
    obtain rfl := List.mem_singleton.mp hrow
    exact ⟨not_undrawn_plain (by decide), not_undrawn_plain (by decide)⟩
  released := by
    intro c hc
    obtain rfl := List.mem_singleton.mp hc
    exact not_undrawn_plain (by decide)

open Sample in
/-- The client exchanges its token, the grant is revoked, and the new token is revoked with it. -/
theorem TokenExchange.revocation_not_missed_sample :
    ∃ c row, revokedLast.minted 1 = some c ∧
      IssuanceStore.getByJTI c.jti revokedLast.store = .ok (some row) ∧ row.isRevoked = true := by
  have hreport : (revokedLast.report 0).isSome = true := by decide +kernel
  have hminted : (revokedLast.minted 1).isSome = true := by decide +kernel
  obtain ⟨report, hreport⟩ := Option.isSome_iff_exists.mp hreport
  obtain ⟨c, hc⟩ := Option.isSome_iff_exists.mp hminted
  have hrun : revokedLast =
      (Server.start Env.plain revokeAndExchange (granted "r1")).exec (turn 1 ++ turn 0) := rfl
  have hparts : ∀ i, TakesPart (granted "r1") (revokeAndExchange i) := by
    intro i
    cases i with
    | zero => trivial
    | succ n => exact ⟨by simp, fun target h => by
        obtain rfl : notes = target :=
          Except.ok.inj (show Except.ok notes = Except.ok target from h)
        rfl⟩
  have hfaultless : ∀ e ∈ turn 1 ++ turn 0, e.2 = false := by
    intro e he
    rcases List.mem_append.mp he with h | h <;> rw [(List.mem_replicate.mp h).2]
  have hrow : ∃ row ∈ revokedLast.store.issuances, row.jti = c.jti ∧
      Consent.isRoot (Consent.ofGrant notesGrant) row = true := by
    have hall : ∀ c ∈ revokedLast.minted 1, ∃ row ∈ revokedLast.store.issuances, row.jti = c.jti ∧
        Consent.isRoot (Consent.ofGrant notesGrant) row = true := by decide +kernel
    exact hall c hc
  have hseen : Seen (Consent.ofGrant notesGrant) revokedLast.store c.jti := by
    have hall : ∀ c ∈ revokedLast.minted 1, ∀ e ∈ revokedLast.store.journal.take 1,
        e.event ≠ .issued c.jti := by decide +kernel
    refine ⟨revokedLast.store.journal.take 1, revokedLast.store.journal.drop 2,
      0, by decide +kernel, fun ctx hmem => hall c hc _ hmem rfl⟩
  obtain ⟨row, hmem, hjti, hroot⟩ := hrow
  have hderived : Derived (Consent.ofGrant notesGrant) revokedLast.store c.jti :=
    hjti ▸ .root hmem hroot (.inl (hjti.symm ▸ hseen))
  rw [hrun] at hderived hreport hc ⊢
  obtain ⟨resp, hresp, htoken⟩ := Server.exchanged_of_minted hc
  obtain ⟨row, hget, hrevoked⟩ := TokenExchange.revocation_not_missed Env.plain revokeAndExchange
    (granted "r1") starts_granted hparts (turn 1 ++ turn 0) hfaultless 1 _ rfl resp c hresp htoken 0
    report notesGrant (by decide) rfl (Server.ret_of_report hreport) (.inl hderived)
  exact ⟨c, row, hc, hget, hrevoked⟩

end AuthServer
