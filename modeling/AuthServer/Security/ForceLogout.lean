import AuthServer.Service.Serve
import AuthServer.Service.Tables

/-!
# Logging a user out

`AdminService.ForceLogoutUser` lists at most 500 active families of the user, revokes all active
families of the user in one statement, and then denylists the access tokens of the families it
listed. The number it returns is the number of families the statement revoked. These are the ones it
listed when there were no more than 500, and when no code of the user was redeemed between the
listing and the statement; otherwise it revokes families whose access tokens it does not denylist.

The argument is about the window between the two calls, which can be seen in the history:
`userListed` is noted by the first, `userRevoked` by the second together with the families it
revoked. -/

namespace AuthServer

open Interleave Table

namespace ForceLogout

/-! ### The condition -/

def isLogout (userID : String) : Event → Bool
  | .userRevoked u _ => u == userID
  | _ => false

/-- A listing that is not cut off at 500. -/
def fits (w : World) : Event → Bool
  | .userListed u => (TokenStore.activeOfUser u w).length ≤ 500
  | _ => true

/-- Every request that has listed the families of the user has revoked them. -/
def Settled (userID : String) (w : World) : Prop :=
  ∀ e ∈ w.journal, e.event = .userListed userID →
    ∃ e' ∈ w.journal, e'.ctx = e.ctx ∧ isLogout userID e'.event = true

/-- A step that opens no family of a user whose families are listed and not revoked yet, and that
lists no more than 500 families. -/
def Timely (w w' : World) : Prop :=
  (∀ f ∈ w'.families, (∃ g ∈ w.families, g.id = f.id) ∨ Settled f.userID w) ∧
    ∀ e ∈ w'.journal, e ∈ w.journal ∨ fits w e.event = true

instance (w w' : World) : Decidable (Timely w w') := by
  unfold Timely Settled
  infer_instance

def TimelyRun (c : Server) : Schedule ReqID → Prop
  | [] => True
  | e :: rest => Timely c.store (c.step e.1 e.2).store ∧ TimelyRun (c.step e.1 e.2) rest

instance decidableTimelyRun : (c : Server) → (sched : Schedule ReqID) →
    Decidable (TimelyRun c sched)
  | _, [] => inferInstanceAs (Decidable True)
  | c, e :: rest =>
    have := decidableTimelyRun (c.step e.1 e.2) rest
    inferInstanceAs (Decidable (_ ∧ _))

/-! ### The contract -/

variable {env : Env} {i j : ReqID} {w w' w'' : World} {userID : String} {timely : Prop}

/-- The request has listed the families of the user and not revoked them yet. -/
def InWindow (i : ReqID) (userID : String) (w : World) : Prop :=
  ⟨i, .userListed userID⟩ ∈ w.journal ∧ ∀ ids, ⟨i, .userRevoked userID ids⟩ ∉ w.journal

theorem InWindow.not_settled (h : InWindow i userID w) : ¬Settled userID w := by
  intro hs
  obtain ⟨⟨ctx, event⟩, he, rfl, hevent⟩ := hs _ h.1 rfl
  cases event with
  | userRevoked u ids =>
    obtain rfl : u = userID := by simpa [isLogout] using hevent
    exact h.2 ids he
  | _ => cases hevent

/-- What any step does, as far as others can tell. -/
structure Moves (w w' : World) : Prop where
  families : Grows Family.Later w.families w'.families
  /-- A family is one that was there or one with a new identifier. -/
  origin : ∀ f' ∈ w'.families,
    (∃ f ∈ w.families, Family.Later f f') ∨ ∀ g ∈ w.families, g.id ≠ f'.id
  /-- Nothing is tracked for a family after it was opened. -/
  tracked : ∀ t ∈ w'.accessTokenJTIs,
    t ∈ w.accessTokenJTIs ∨ ∀ g ∈ w.families, g.id ≠ t.familyID
  denied : w.revokedJTIs ⊆ w'.revokedJTIs
  journal : w.journal ⊆ w'.journal

theorem Moves.of_eq (hf : w'.families = w.families) (ht : w'.accessTokenJTIs = w.accessTokenJTIs)
    (hd : w.revokedJTIs ⊆ w'.revokedJTIs) (hj : w.journal ⊆ w'.journal) : Moves w w' where
  families := hf ▸ Grows.refl Family.Later.refl _
  origin := fun f hmem => .inl ⟨f, hf ▸ hmem, .refl f⟩
  tracked := fun _ hmem => .inl (ht ▸ hmem)
  denied := hd
  journal := hj

theorem Moves.refl (w : World) : Moves w w :=
  .of_eq rfl rfl (List.Subset.refl _) (List.Subset.refl _)

/-- What no row of the later table has, no row of the earlier one has. -/
theorem Moves.new_of_new (h : Moves w w') {id : String} (hnew : ∀ g ∈ w'.families, g.id ≠ id) :
    ∀ g ∈ w.families, g.id ≠ id := by
  intro g hg heq
  obtain ⟨g', hg', hlater⟩ := h.families g hg
  exact hnew g' hg' (hlater.id_eq.trans heq)

theorem Moves.trans (h : Moves w w') (h' : Moves w' w'') : Moves w w'' where
  families := h.families.trans Family.Later.trans h'.families
  origin := fun f hf => by
    rcases h'.origin f hf with ⟨f', hf', hlater'⟩ | hnew
    · rcases h.origin f' hf' with ⟨f₀, hf₀, hlater⟩ | hnew
      · exact .inl ⟨f₀, hf₀, hlater.trans hlater'⟩
      · exact .inr fun g hg => hlater'.id_eq ▸ hnew g hg
    · exact .inr (h.new_of_new hnew)
  tracked := fun t ht => by
    rcases h'.tracked t ht with ht' | hnew
    · exact h.tracked t ht'
    · exact .inr (h.new_of_new hnew)
  denied := fun _ hr => h'.denied (h.denied hr)
  journal := fun _ he => h'.journal (h.journal he)

def NoneOpened (userID : String) (w w' : World) : Prop :=
  ∀ f' ∈ w'.families, f'.userID = userID → f'.isActive = true →
    ∃ f ∈ w.families, Family.Later f f'

/-- The others move, note nothing in the name of the request, and open no family in its window. -/
structure Interference (timely : Prop) (i : ReqID) (w w' : World) : Prop where
  moves : Moves w w'
  others : ∀ e ∈ w'.journal, e ∈ w.journal ∨ e.ctx ≠ i
  window : timely → ∀ userID, InWindow i userID w → NoneOpened userID w w'

theorem Interference.inWindow (h : Interference timely i w w') (hw : InWindow i userID w) :
    InWindow i userID w' := by
  refine ⟨h.moves.journal hw.1, fun ids hmem => ?_⟩
  rcases h.others _ hmem with hold | hne
  · exact hw.2 ids hold
  · exact hne rfl

theorem Interference.trans (h : Interference timely i w w') (h' : Interference timely i w' w'') :
    Interference timely i w w'' where
  moves := h.moves.trans h'.moves
  others := fun e he => (h'.others e he).elim (h.others e) .inr
  window := fun ht u hw f hf hu hactive => by
    obtain ⟨f', hf', hlater'⟩ := h'.window ht u (h.inWindow hw) f hf hu hactive
    have hu' : f'.userID = u := by rw [← hu, hlater'.same]
    obtain ⟨f₀, hf₀, hlater⟩ := h.window ht u hw f' hf' hu' (hlater'.active hactive)
    exact ⟨f₀, hf₀, hlater.trans hlater'⟩

/-- The contract: identifiers of families stay unique, everybody moves and notes in its own name.
When the run is timely, so is each step. No call fails. -/
def contract (timely : Prop) : Contract ReqID World where
  inv := fun w => (w.families.map Family.id).Nodup
  rely := Interference timely
  guar := fun i w w' => Moves w w' ∧ ∀ e ∈ w'.journal, e ∈ w.journal ∨ e.ctx = i
  admits := fun _ w w' => timely → Timely w w'
  faulty := False
  rely_refl := fun _ w => ⟨.refl w, fun _ he => .inl he, fun _ _ _ f hf _ _ => ⟨f, hf, .refl f⟩⟩
  rely_trans := Interference.trans
  rely_of_guar := fun hij hadm h =>
    { moves := h.1
      others := fun e he => (h.2 e he).imp id fun hctx hj => hij (hctx.symm.trans hj)
      window := fun ht u hw f hf hu _ => by
        rcases h.1.origin f hf with hold | hnew
        · exact hold
        · rcases (hadm ht).1 f hf with ⟨g, hg, hid⟩ | hsettled
          · exact absurd hid (hnew g hg)
          · exact absurd (hu ▸ hsettled) hw.not_settled }

theorem tolerant (timely : Prop) (i : ReqID) : Tolerant (contract timely) i := by
  intro u v hu hq
  have hmoves : Moves u v := by
    obtain ⟨_, _, _, -, rfl⟩ := hq
    exact .of_eq rfl rfl (List.Subset.refl _) (List.Subset.refl _)
  obtain ⟨_, _, _, -, rfl⟩ := hq
  exact ⟨hu, ⟨hmoves, fun _ he => .inl he⟩,
    ⟨hmoves, fun _ he => .inl he, fun _ _ _ f hf _ _ => ⟨f, hf, .refl f⟩⟩⟩

/-! ### The steps -/

/-- The writes of redemptions and logouts. -/
def Plain : Write → Prop
  | .trackJTI _ _ _ => False
  | .maintain _ => False
  | _ => True

variable {f : Family}

theorem tracked_openFamily {jti : String} {now expiry : Time} {issueRefresh tracked : Bool} :
    ∀ t ∈ (Write.run env i (.openFamily f jti now expiry issueRefresh tracked) w).accessTokenJTIs,
      t ∈ w.accessTokenJTIs ∨ ∀ g ∈ w.families, g.id ≠ t.familyID := by
  intro t ht
  rcases run_openFamily_cases env i f jti now expiry issueRefresh tracked w with
    h | ⟨w₁, w₂, hcreate, htrack, hrest⟩
  · exact .inl (h ▸ ht)
  obtain ⟨hnew, rfl⟩ := TokenStore.createFamily_ok hcreate
  have hlast : (Write.run env i (.openFamily f jti now expiry issueRefresh tracked)
    w).accessTokenJTIs =
      w₂.accessTokenJTIs := by
    rcases hrest with ⟨-, h⟩ | ⟨-, plain, h⟩
    · rw [h]
    · have hframe :=
        Write.frame env i (.createRefreshToken f.id now env.tokens.refreshTokenExpiry) w₂
      have hrun : Write.run env i (.createRefreshToken f.id now env.tokens.refreshTokenExpiry) w₂ =
          Write.run env i (.openFamily f jti now expiry issueRefresh tracked) w := by
        exact (congrArg Prod.snd h : _)
      exact hrun ▸ hframe.same .accessTokenJTIs (by simp [Write.touches])
  rw [hlast] at ht
  rcases TokenService.trackInTransaction_ok htrack with rfl | rfl
  · exact .inl ht
  · rcases List.mem_append.mp ht with hold | hmem
    · exact .inl hold
    · obtain rfl := List.mem_singleton.mp hmem
      exact .inr fun g hg => (hnew g hg).1

theorem nodup_run (hw : (w.families.map Family.id).Nodup) (x : Write) :
    ((x.run env i w).families.map Family.id).Nodup := by
  rcases families_run env i x w with ⟨g, hg, h⟩ | ⟨f, -, hnew, h⟩
  · rw [h, List.map_map]
    exact (List.map_congr_left fun f _ => (hg f).id_eq) ▸ hw
  · rw [h, List.map_append, List.map_singleton]
    refine hw.append (List.nodup_singleton _) ?_
    simp only [List.disjoint_singleton, List.mem_map, not_exists, not_and]
    exact fun f' hf' => (hnew f' hf').1

theorem nodup_exec {reqs : ReqID → Request} (hw : (w.families.map Family.id).Nodup)
    (sched : Schedule ReqID) :
    (((Server.start env reqs w).exec sched).store.families.map Family.id).Nodup := by
  refine Server.inv_exec (I := fun s => (s.families.map Family.id).Nodup) (fun u v hquiet hu => ?_)
    (fun i x u _ hu => nodup_run hu x) hw sched
  obtain ⟨_, _, _, -, rfl⟩ := hquiet
  exact hu

variable {x : Write}

theorem moves_run (hx : Plain x) (w : World) : Moves w (x.run env i w) := by
  have hframe := x.frame env i w
  refine ⟨grows_families_run env i x w, fun f' hf' => ?_, ?_, ?_, ?_⟩
  · rcases families_run env i x w with ⟨g, hg, h⟩ | ⟨f, -, hnew, h⟩
    · rw [h] at hf'
      obtain ⟨f, hf, rfl⟩ := List.mem_map.mp hf'
      exact .inl ⟨f, hf, hg f⟩
    · rw [h] at hf'
      rcases List.mem_append.mp hf' with hold | hmem
      · exact .inl ⟨f', hold, .refl f'⟩
      · obtain rfl := List.mem_singleton.mp hmem
        exact .inr fun g hg => (hnew g hg).1
  · cases x with
    | openFamily => exact tracked_openFamily
    | trackJTI => exact hx.elim
    | maintain => exact hx.elim
    | _ =>
      rw [hframe.same .accessTokenJTIs (by simp [Write.touches])]
      exact fun t ht => .inl ht
  · cases x with
    | denylistFamily id => exact List.subset_append_left _ _
    | maintain => exact hx.elim
    | _ =>
      rw [hframe.same .revokedJTIs (by simp [Write.touches])]
      exact List.Subset.refl _
  · rcases hframe.journal with h | ⟨e, -, h⟩
    · rw [h]
      exact List.Subset.refl _
    · rw [h]
      exact List.subset_cons_self _ _

theorem contract_run (env : Env) (i : ReqID) (x : Write) (hx : Plain x)
    (hw : (contract timely).inv w) :
    (contract timely).inv (x.run env i w) ∧ (contract timely).guar i w (x.run env i w) := by
  refine ⟨nodup_run hw x, moves_run hx w, fun e he => ?_⟩
  rcases (x.frame env i w).journal with h | ⟨e', -, h⟩
  · exact .inl (h ▸ he)
  · rw [h] at he
    rcases List.mem_cons.mp he with rfl | hold
    · exact .inr rfl
    · exact .inl hold

theorem contract_uses {kinds : Write → Prop} (hkinds : ∀ x, kinds x → Plain x)
    (hw : (contract timely).inv w) (h : Uses env i kinds w w') :
    (contract timely).inv w' ∧ (contract timely).guar i w w' := by
  rcases h with ⟨_, _, _, -, rfl⟩ | ⟨x, hx, rfl⟩
  · exact ⟨hw, .of_eq rfl rfl (List.Subset.refl _) (List.Subset.refl _), fun e he => .inl he⟩
  · exact contract_run env i x (hkinds x hx) hw

theorem plain_of_redemption (hx : Write.ofRedemption x) : Plain x := by
  cases x <;> trivial

/-! ### A logout -/

/-- The access tokens tracked for these families are on the denylist, and the families are there. -/
def Cut (ids : List String) (w : World) : Prop :=
  ∀ id ∈ ids, (∃ f ∈ w.families, f.id = id) ∧
    ∀ t ∈ w.accessTokenJTIs, t.familyID = id → ∃ r ∈ w.revokedJTIs, r.jti = t.jti

variable {ids : List String}

theorem Cut.moves (h : Cut ids w) (hm : Moves w w') : Cut ids w' := by
  intro id hid
  obtain ⟨⟨f, hf, rfl⟩, hdenied⟩ := h id hid
  obtain ⟨f', hf', hlater⟩ := hm.families f hf
  refine ⟨⟨f', hf', hlater.id_eq⟩, fun t ht hfam => ?_⟩
  rcases hm.tracked t ht with hold | hnew
  · obtain ⟨r, hr, hjti⟩ := hdenied t hold hfam
    exact ⟨r, hm.denied hr, hjti⟩
  · exact absurd hfam.symm (hnew f hf)

/-- The step revokes these families of the user: they are the active families of the user before it,
each of them is revoked after it, and every other row is as it was. -/
structure Revokes (userID : String) (ids : List String) (w w' : World) : Prop where
  nodup : ids.Nodup
  active : ∀ id, id ∈ ids ↔ ∃ f ∈ w.families, f.id = id ∧ f.userID = userID ∧ f.isActive = true
  families : w'.families = w.families.map fun f =>
    if f.id ∈ ids then { f with status := .revoked, revokedAt := some w.clock } else f

theorem mem_activeOfUser : f ∈ TokenStore.activeOfUser userID w ↔
    f ∈ w.families ∧ f.userID = userID ∧ f.isActive = true := by
  simp [TokenStore.activeOfUser]

theorem revokes_revokeByUserID (hw : (w.families.map Family.id).Nodup) :
    Revokes userID ((TokenStore.activeOfUser userID w).map Family.id) w
      (TokenStore.revokeByUserID i userID w).2 where
  nodup := hw.sublist (List.filter_sublist.map _)
  active := fun id => by simp [mem_activeOfUser, and_comm, and_left_comm]
  families := by
    refine List.map_congr_left fun f hf => ?_
    -- a row with the identifier of an active family of the user is that family
    have hmem : f.id ∈ (TokenStore.activeOfUser userID w).map Family.id ↔
        (f.userID == userID && f.isActive) = true := by
      simp only [List.mem_map, mem_activeOfUser, Bool.and_eq_true, beq_iff_eq]
      constructor
      · rintro ⟨g, ⟨hg, hactive⟩, hid⟩
        exact List.inj_on_of_nodup_map hw hg hf hid ▸ hactive
      · exact fun hactive => ⟨f, ⟨hf, hactive⟩, rfl⟩
    by_cases h : (f.userID == userID && f.isActive) = true
    · rw [if_pos h, if_pos (hmem.mpr h)]
    · rw [if_neg h, if_neg (mt hmem.mp h)]

theorem mem_listActiveFamiliesOfUser (hfits : (TokenStore.activeOfUser userID w).length ≤ 500)
    (hf : f ∈ TokenStore.activeOfUser userID w) :
      f ∈ TokenStore.listActiveFamiliesOfUser userID 500 w := by
  unfold TokenStore.listActiveFamiliesOfUser
  rw [List.take_of_length_le (by simpa using hfits)]
  simpa using hf

variable {families : List Family} {s : World}

theorem ensures_denylistFamilies (ids : List String) {entry : Entry}
    (hs : (contract timely).inv s) (hnoted : entry ∈ s.journal) (hcut : Cut ids s)
    (hthere : ∀ f ∈ families, ∃ g ∈ s.families, g.id = f.id) :
    Ensures (contract timely) i
      (fun _ t => entry ∈ t.journal ∧ Cut (ids ++ families.map Family.id) t)
      (AdminService.denylistFamilies i families) s := by
  induction families generalizing ids s with
  | nil => exact ⟨hnoted, by simpa using hcut⟩
  | cons f rest ih =>
    have hstep := contract_run Env.plain i (.denylistFamily f.id) trivial hs
    refine .bind (Ensures.attempt_exec (fun _ => hstep) (fun _ t ht hi => ?_) fun h => h.elim)
    have hcut' : Cut (ids ++ [f.id]) (RevocationStore.revokeByFamily i f.id s).2 := by
      intro id hid
      rcases List.mem_append.mp hid with hold | hnew
      · exact hcut.moves hstep.2.1 id hold
      · obtain rfl := List.mem_singleton.mp hnew
        refine ⟨hthere f List.mem_cons_self, fun t ht hfam => ?_⟩
        exact RevocationStore.mem_denylistRows s.revokedJTIs ht hfam
    have hnoted' := ht.moves.journal (hstep.2.1.journal hnoted)
    have hrest := ih _ hi hnoted' (hcut'.moves ht.moves) fun g hg => by
      obtain ⟨g₁, hg₁, hid⟩ := hthere g (List.mem_cons_of_mem f hg)
      obtain ⟨g₂, hg₂, hlater⟩ := ht.moves.families g₁ hg₁
      exact ⟨g₂, hg₂, hlater.id_eq.trans hid⟩
    simpa [List.append_assoc] using hrest

/-- What a logout has to say when it returns. -/
def LoggedOut (timely : Prop) (i : ReqID) (userID : String) (n : ℕ) (w : World) : Prop :=
  ∃ ids, ids.length = n ∧ ⟨i, .userRevoked userID ids⟩ ∈ w.journal ∧ (timely → Cut ids w)

theorem Cut.mono {ids ids' : List String} (h : Cut ids' w) (hsub : ids ⊆ ids') : Cut ids w :=
  fun id hid => h id (hsub hid)

theorem listed_of_active
    (hfamilies : families = TokenStore.listActiveFamiliesOfUser userID 500 w)
    (hfits : (TokenStore.activeOfUser userID w).length ≤ 500) (h : NoneOpened userID w w') :
    (TokenStore.activeOfUser userID w').map Family.id ⊆ families.map Family.id := by
  intro id hid
  obtain ⟨f', hf', rfl⟩ := List.mem_map.mp hid
  obtain ⟨hmem, huser, hactive⟩ := mem_activeOfUser.mp hf'
  obtain ⟨f, hf, hlater⟩ := h f' hmem huser hactive
  have huser' : f.userID = userID := by rw [← huser, hlater.same]
  have hlisted := mem_listActiveFamiliesOfUser hfits
    (mem_activeOfUser.mpr ⟨hf, huser', hlater.active hactive⟩)
  exact List.mem_map.mpr ⟨f, hfamilies ▸ hlisted, hlater.id_eq.symm⟩

theorem ensures_forceLogoutUser (hs : (contract timely).inv s)
    (hfirst : ∀ e ∈ s.journal, e.ctx ≠ i) :
    Ensures (contract timely) i (LoggedOut timely i userID)
      (AdminService.forceLogoutUser i userID) s := by
  refine (tolerant timely i).pass each_fetch hs fun _ s₁ h₁ hi₁ => ?_
  have hfirst₁ : ∀ e ∈ s₁.journal, e.ctx ≠ i := fun e he => (h₁.others e he).elim (hfirst e) id
  -- the listing
  have hlist := contract_run Env.plain i (.listUser userID) trivial hi₁
  refine .bind (ensures_wrapErr
    (Ensures.exec (fun _ => hlist) fun families hlisted hadm s₂ h₂ hi₂ => ?_))
  obtain rfl : TokenStore.listActiveFamiliesOfUser userID 500 s₁ = families := Except.ok.inj hlisted
  have hwindow : InWindow i userID (s₁.note i (.userListed userID)) := by
    refine ⟨List.mem_cons_self, fun ids hmem => ?_⟩
    rcases List.mem_cons.mp hmem with heq | hold
    · cases heq
    · exact hfirst₁ _ hold rfl
  have hcovered : timely → (TokenStore.activeOfUser userID s₂).map Family.id ⊆
      (TokenStore.listActiveFamiliesOfUser userID 500 s₁).map Family.id := by
    intro ht
    have hfits := ((hadm ht).2 ⟨i, .userListed userID⟩ List.mem_cons_self).resolve_left
      fun hold => hfirst₁ _ hold rfl
    exact listed_of_active rfl (by simpa [fits] using hfits) (h₂.window ht userID hwindow)
  have hthere : ∀ f ∈ TokenStore.listActiveFamiliesOfUser userID 500 s₁,
    ∃ g ∈ s₂.families, g.id = f.id := by
    intro f hf
    have hmem : f ∈ TokenStore.activeOfUser userID s₁ := by
      simpa using List.mem_of_mem_take hf
    obtain ⟨g, hg, hlater⟩ := h₂.moves.families f (mem_activeOfUser.mp hmem).1
    exact ⟨g, hg, hlater.id_eq⟩
  -- the revocation
  have hrevoke := contract_run Env.plain i (.revokeFamiliesOfUser userID) trivial hi₂
  refine .bind (ensures_wrapErr (Ensures.exec (fun _ => hrevoke) fun n hn _ s₃ h₃ hi₃ => ?_))
  obtain rfl : (TokenStore.activeOfUser userID s₂).length = n := Except.ok.inj hn
  -- the denylist
  refine Ensures.seq (ensures_denylistFamilies [] hi₃ (h₃.moves.journal List.mem_cons_self)
    (fun _ hid => by simp at hid) fun f hf => ?_) fun _ t ht => ?_
  · obtain ⟨g, hg, hid⟩ := hthere f hf
    obtain ⟨g', hg', hlater⟩ := (hrevoke.2.1.trans h₃.moves).families g hg
    exact ⟨g', hg', hlater.id_eq.trans hid⟩
  · exact ⟨_, by simp, ht.1, fun htimely => ht.2.mono (hcovered htimely)⟩

/-! ### The pool -/

/-- A redemption or a logout. -/
def Session : Request → Prop
  | .exchangeCode _ => True
  | .forceLogoutUser _ => True
  | _ => False

def Answered (timely : Prop) (i : ReqID) : Request → Response → World → Prop
  | .forceLogoutUser userID, resp, t => ∃ n, resp = .loggedOut n ∧ LoggedOut timely i userID n t
  | _, _, _ => True

variable {req : Request}

theorem safe_serve (hreq : Session req) (hs : (contract timely).inv s)
    (hfirst : ∀ e ∈ s.journal, e.ctx ≠ i) :
    Ensures (contract timely) i (Answered timely i req) (serve env i req) s := by
  cases req with
  | forceLogoutUser userID =>
    exact .seq (ensures_forceLogoutUser hs hfirst) fun n t h => ⟨n, rfl, h⟩
  | exchangeCode r =>
    exact .of_each_inv (uses_serve env i (.exchangeCode r))
      (fun u v hu huv => contract_uses (fun x hx => plain_of_redemption hx) hu huv) hs
  | _ => exact hreq.elim

theorem admitted_of_timely (c : Server) (sched : Schedule ReqID)
    (hfaults : ∀ e ∈ sched, e.2 = false) (h : timely → TimelyRun c sched) :
    Pool.Admitted (contract timely) c sched := by
  induction sched generalizing c with
  | nil => trivial
  | cons e rest ih =>
    refine ⟨fun ht =>
      (h ht).1, fun hbad => ?_, ih _ (fun e' he' => hfaults e' (List.mem_cons_of_mem e he'))
      fun ht => (h ht).2⟩
    rw [hfaults e List.mem_cons_self] at hbad
    cases hbad

theorem eq_of_notes (hreq : Session req) (hx : req.kinds x)
    (hnotes : x.notes (.userRevoked userID ids)) :
    x = .revokeFamiliesOfUser userID := by
  cases req with
  | exchangeCode =>
    cases x with
    | release _ event =>
      obtain rfl : Event.userRevoked userID ids = event := hnotes
      exact hx.elim
    | _ => simp [Write.notes, Request.kinds, Write.ofRedemption] at hnotes hx
  | forceLogoutUser =>
    cases x with
    | revokeFamiliesOfUser u =>
      obtain ⟨_, hevent⟩ := hnotes
      rw [(Event.userRevoked.inj hevent).1]
    | _ => simp [Write.notes, Request.kinds, Write.ofRevocation] at hnotes hx
  | _ => exact hreq.elim

end ForceLogout

open ForceLogout

variable {i : ReqID}

/-- **Logging a user out, among redemptions.** Take any store whose family identifiers are unique,
any redemptions and logouts, and any interleaving of their calls with none of them failing. When a
logout has returned a number, then in one of its steps that many families, the active ones of the
user, became revoked, and no other row changed. If moreover no step opened a family of a user
between the listing and the revocation of that user's logout, and no listing was of more than 500
families, then every access token tracked for one of them is on the denylist. -/
theorem AdminService.force_logout_counts {env : Env} {reqs : ReqID → Request} {w : World}
    (hreqs : ∀ j, Session (reqs j)) (hunique : (w.families.map Family.id).Nodup)
    (hstart : w.journal = []) (sched : Schedule ReqID) (hfaults : ∀ e ∈ sched, e.2 = false)
    {userID : String} (hreq : reqs i = .forceLogoutUser userID) {resp : Response}
    (hret : ((Server.start env reqs w).exec sched).procs i = .ret resp) :
    ∃ ids n, resp = .loggedOut n ∧ ids.length = n ∧
      (∃ pre post, sched = pre ++ (i, false) :: post ∧
        Revokes userID ids ((Server.start env reqs w).exec pre).store
          (((Server.start env reqs w).exec pre).step i false).store) ∧
      (TimelyRun (Server.start env reqs w) sched →
        ∀ id ∈ ids, ∀ t ∈ ((Server.start env reqs w).exec sched).store.accessTokenJTIs,
          t.familyID = id →
            ∃ r ∈ ((Server.start env reqs w).exec sched).store.revokedJTIs, r.jti = t.jti) := by
  have hready : Pool.Ready (contract (TimelyRun (Server.start env reqs w) sched))
      (fun j => Answered (TimelyRun (Server.start env reqs w) sched) j (reqs j)) (fun _ _ _ => True)
      (Server.start env reqs w) :=
    ⟨hunique, fun j t ht hi => safe_serve (hreqs j) hi fun e he =>
      (ht.others e he).elim (fun hold => by simp [Server.start, hstart] at hold) id⟩
  have hpost := (hready.exec sched (admitted_of_timely _ sched hfaults id)).post hret
  rw [hreq] at hpost
  obtain ⟨n, rfl, ids, hlen, hnoted, hcut⟩ := hpost
  refine ⟨ids, n, rfl, hlen, ?_, fun ht id hid => (hcut ht id hid).2⟩
  have hnone : ⟨i, .userRevoked userID ids⟩ ∉ w.journal := by simp [hstart]
  obtain ⟨pre, bad, post, x, rfl, hx, hnotes, hstep, hjournal⟩ := Server.exists_noting hnone hnoted
  obtain rfl : bad = false := hfaults (i, bad) (by simp)
  refine ⟨pre, post, rfl, ?_⟩
  -- the step is the statement, and what it noted is what it did
  obtain rfl := eq_of_notes (hreqs i) hx hnotes
  have hids := (Entry.mk.inj (List.cons.inj hjournal).1).2
  obtain ⟨-, rfl⟩ := Event.userRevoked.inj hids
  rw [hstep]
  exact revokes_revokeByUserID (nodup_exec hunique pre)

def Sample.logout : ReqID → Request
  | 0 => Sample.redeem "code"
  | _ => .forceLogoutUser "user"

/-- A logout of the user, and the redemption of the one code the user has. -/
def Sample.logouts : Server :=
  Server.start Env.plain Sample.logout (Sample.world [Sample.session "s" "code"])

theorem Sample.session_logout (i : ReqID) : Session (Sample.logout i) := by
  cases i <;> trivial

/-- The number a logout was answered with. -/
def Server.loggedOut (c : Server) (i : ReqID) : Option ℕ :=
  match c.procs i with
  | .ret (.loggedOut n) => some n
  | _ => none

theorem Server.ret_of_loggedOut {c : Server} {n : ℕ} (h : Server.loggedOut c i = some n) :
    c.procs i = .ret (.loggedOut n) := by
  unfold Server.loggedOut at h
  split at h
  · rename_i n' hp
    rw [hp, Option.some.inj h]
  · cases h

/-- The code is redeemed before the user is logged out. -/
theorem AdminService.force_logout_counts_sample :
    (Sample.logouts.exec (Sample.turn 0 ++ Sample.turn 1)).store.accessTokenJTIs.length = 1 ∧
      ∃ ids : List String, ids.length = 1 ∧
        (∃ pre post, Sample.turn 0 ++ Sample.turn 1 = pre ++ (1, false) :: post ∧
          Revokes "user" ids (Sample.logouts.exec pre).store
            ((Sample.logouts.exec pre).step 1 false).store) ∧
        ∀ id ∈ ids, ∀ t ∈
          (Sample.logouts.exec (Sample.turn 0 ++ Sample.turn 1)).store.accessTokenJTIs,
          t.familyID = id →
            ∃ r ∈ (Sample.logouts.exec (Sample.turn 0 ++ Sample.turn 1)).store.revokedJTIs,
              r.jti = t.jti := by
  have hret := Server.ret_of_loggedOut (c := Sample.logouts.exec (Sample.turn 0 ++ Sample.turn 1))
    (i := 1) (n := 1) (by decide +kernel)
  unfold Sample.logouts at hret ⊢
  have hreq : Sample.logout 1 = .forceLogoutUser "user" := rfl
  obtain ⟨ids, n, hresp, hlen, hstep, hcut⟩ := AdminService.force_logout_counts
    Sample.session_logout (by decide) rfl (Sample.turn 0 ++ Sample.turn 1) (by decide) hreq hret
  obtain rfl := Response.loggedOut.inj hresp
  exact ⟨by decide +kernel, ids, hlen, hstep, hcut (by decide +kernel)⟩

/-- **A family that is revoked and not denylisted.** The code is redeemed after the listing. -/
theorem AdminService.force_logout_misses :
    let c := Sample.logouts.exec ([(1, false), (1, false)] ++ Sample.turn 0 ++ Sample.turn 1)
    Server.loggedOut c 1 = some 1 ∧
      ∃ t ∈ c.store.accessTokenJTIs,
        (∃ f ∈ c.store.families, f.id = t.familyID ∧ f.userID = "user" ∧ f.status = .revoked) ∧
        ∀ r ∈ c.store.revokedJTIs, r.jti ≠ t.jti := by
  decide +kernel

end AuthServer
