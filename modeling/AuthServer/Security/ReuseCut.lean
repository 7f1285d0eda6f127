import AuthServer.Service.Serve
import AuthServer.Service.Tables
import AuthServer.Service.TokenRules

/-!
# Reuse detection

The response to a replayed refresh token or code has two halves, each a store call of its own: the
family is revoked, then the access tokens tracked for it are put on the denylist. Refreshes of the
family go on meanwhile. This module shows that no access token of the family escapes, however the
calls interleave, as long as every call is answered and no tracked row is purged.

## The argument

A refresh tracks its access token *before* it looks at the family a second time. If the family is
still active at that look, it has not been revoked yet, so no denylist half of a response has
happened yet: a response denylists a family that it has revoked, or found revoked. When one happens
it finds the token tracked. If the family is not active the token is not returned. A redemption
creates the family and tracks the token in one transaction.

`Cut` says of the history that a response has been through its denylist half for a family, and
`Covered` is what is kept from the second look on.

What is tracked is a row for the identifier, and a second row for the same identifier is ignored:
that the row is the refresh's own rests on random strings not repeating. -/

namespace AuthServer

open Interleave Table

namespace ReuseCut

/-! ### The history of a family -/

/-- The requests that hand out the tokens of families, and respond to replays. -/
def HandsOut : Request → Prop
  | .exchangeCode _ => True
  | .refreshToken _ => True
  | _ => False

/-- In this history a response to a replay has denylisted the family's access tokens. -/
def Cut (reqs : ReqID → Request) (f : String) (l : List Entry) : Prop :=
  ∃ e ∈ l, e.event = .denylisted f ∧ HandsOut (reqs e.ctx)

variable {f : String}

theorem cut_cons_of_ne {reqs : ReqID → Request} {e : Entry} {l : List Entry}
    (h : e.event ≠ .denylisted f) : Cut reqs f (e :: l) ↔ Cut reqs f l := by
  simp [Cut, h]

/-- The access token is on the denylist. -/
def Denylisted (jti : String) (w : World) : Prop :=
  ∃ r ∈ w.revokedJTIs, r.jti = jti

def Tracked (f jti : String) (w : World) : Prop :=
  ∃ t ∈ w.accessTokenJTIs, t.jti = jti ∧ t.familyID = f

/-- The access token is tracked for the family, and denylisted if the family has been cut. -/
def Covered (reqs : ReqID → Request) (f jti : String) (w : World) : Prop :=
  Tracked f jti w ∧ (Cut reqs f w.journal → Denylisted jti w)

def Inactive (f : String) (w : World) : Prop :=
  ∃ g ∈ w.families, g.id = f ∧ g.isActive = false

/-! ### The invariant -/

/-- What holds of the store between any two calls. -/
structure Inv (env : Env) (reqs : ReqID → Request) (w : World) : Prop where
  family_unique : UniqueKey (fun f => some f.id) w.families
  /-- Strings still to be drawn are not tracked. -/
  fresh : ∀ t ∈ w.accessTokenJTIs, ¬Undrawn env w t.jti
  /-- A response denylists a family after it was revoked. -/
  cut_inactive : ∀ f, Cut reqs f w.journal → Inactive f w
  /-- What was handed out is covered. -/
  handed_covered : ∀ e ∈ w.journal, ∀ f jti, e.event = .redeemed f jti ∨
    e.event = .refreshed f jti → Covered reqs f jti w

variable {env : Env} {reqs : ReqID → Request} {w w' : World}

theorem Inv.not_cut_of_active (hw : Inv env reqs w) {f : Family} (hf : f ∈ w.families)
    (hactive : f.isActive = true) : ¬Cut reqs f.id w.journal := by
  intro hcut
  obtain ⟨g, hg, hid, hinactive⟩ := hw.cut_inactive f.id hcut
  rw [hw.family_unique g hg f hf _ (congrArg some hid) rfl, hactive] at hinactive
  cases hinactive

theorem Inv.not_cut_of_new (hw : Inv env reqs w) (hnew : ∀ g ∈ w.families, g.id ≠ f) :
    ¬Cut reqs f w.journal := by
  intro hcut
  obtain ⟨g, hg, hid, -⟩ := hw.cut_inactive f hcut
  exact hnew g hg hid

theorem Inactive.of_grows (h : Inactive f w) (hgrows : Grows Family.Later w.families w'.families) :
    Inactive f w' := by
  obtain ⟨g, hg, hid, hinactive⟩ := h
  obtain ⟨g', hg', hlater⟩ := hgrows g hg
  exact ⟨g', hg', hlater.id_eq.trans hid, hlater.inactive hinactive⟩

/-! ### The contract -/

/-- What any step does, as far as others can tell. -/
structure Moves (reqs : ReqID → Request) (w w' : World) : Prop where
  drawn : ∀ j, w.drawn j ≤ w'.drawn j
  families : Grows Family.Later w.families w'.families
  journal : w.journal ⊆ w'.journal
  tracked : w.accessTokenJTIs ⊆ w'.accessTokenJTIs
  covered : ∀ f jti, Covered reqs f jti w → Covered reqs f jti w'

theorem Moves.refl (w : World) : Moves reqs w w :=
  ⟨fun _ => le_rfl, Grows.refl Family.Later.refl _, List.Subset.refl _, List.Subset.refl _,
    fun _ _ h => h⟩

theorem Moves.trans {w'' : World} (h : Moves reqs w w') (h' : Moves reqs w' w'') :
    Moves reqs w w'' :=
  ⟨fun j => (h.drawn j).trans (h'.drawn j), h.families.trans Family.Later.trans h'.families,
    fun _ he => h'.journal (h.journal he), fun _ ht => h'.tracked (h.tracked ht),
    fun f jti hc => h'.covered f jti (h.covered f jti hc)⟩

/-- The contract: everybody keeps the invariant and moves, and tracks only identifiers of its own
drawing. No call fails. -/
def contract (env : Env) (reqs : ReqID → Request) : Contract ReqID World where
  inv := Inv env reqs
  rely := fun i w w' => Moves reqs w w' ∧
    ∀ t ∈ w'.accessTokenJTIs, t ∈ w.accessTokenJTIs ∨ ∃ j n, j ≠ i ∧ t.jti = env.random j n
  guar := fun i w w' => Moves reqs w w' ∧
    ∀ t ∈ w'.accessTokenJTIs, t ∈ w.accessTokenJTIs ∨ ∃ n, t.jti = env.random i n
  admits := fun _ _ _ => True
  faulty := False
  rely_refl := fun _ w => ⟨.refl w, fun _ ht => .inl ht⟩
  rely_trans := fun h h' => ⟨h.1.trans h'.1, fun t ht => (h'.2 t ht).elim (h.2 t) .inr⟩
  rely_of_guar := fun hij _ h => ⟨h.1, fun t ht => (h.2 t ht).imp id fun ⟨n, hn⟩ => ⟨_, n, hij, hn⟩⟩

variable {i : ReqID}

/-- A step that leaves the tables of the argument and the relevant part of the history alone. -/
theorem contract_same (hw : Inv env reqs w) (hdrawn : ∀ j, w.drawn j ≤ w'.drawn j)
    (hgrows : Grows Family.Later w.families w'.families)
      (hunique : UniqueKey (fun f => some f.id) w'.families)
    (htracked : w'.accessTokenJTIs = w.accessTokenJTIs) (hdenied : w'.revokedJTIs = w.revokedJTIs)
    (hjournal : w'.journal = w.journal ∨ ∃ e : Entry, w'.journal = e :: w.journal ∧
      (∀ f, e.event ≠ .denylisted f) ∧ (∀ f jti, e.event ≠ .redeemed f jti) ∧ ∀ f jti,
      e.event ≠ .refreshed f jti) :
    (contract env reqs).inv w' ∧ (contract env reqs).guar i w w' ∧
      (contract env reqs).rely i w w' := by
  have hsub : w.journal ⊆ w'.journal := by
    rcases hjournal with h | ⟨e, h, -⟩
    · rw [h]
      exact List.Subset.refl _
    · rw [h]
      exact List.subset_cons_self e _
  have hcut : ∀ f, Cut reqs f w'.journal ↔ Cut reqs f w.journal := by
    intro f
    rcases hjournal with h | ⟨e, h, hne, -⟩
    · rw [h]
    · rw [h]
      exact cut_cons_of_ne (hne f)
  have hcovered : ∀ f jti, Covered reqs f jti w → Covered reqs f jti w' := by
    intro f jti h
    refine ⟨?_, fun hc => ?_⟩
    · simpa only [Tracked, htracked] using h.1
    · simpa only [Denylisted, hdenied] using h.2 ((hcut f).mp hc)
  have hmoves : Moves reqs w w' := ⟨hdrawn, hgrows, hsub, htracked ▸ List.Subset.refl _, hcovered⟩
  refine ⟨?_, ⟨hmoves, fun t ht => .inl (htracked ▸ ht)⟩,
    ⟨hmoves, fun t ht => .inl (htracked ▸ ht)⟩⟩
  exact
    { family_unique := hunique
      fresh := fun t ht hun => hw.fresh t (htracked ▸ ht) (hun.of_le hdrawn)
      cut_inactive := fun f hc => (hw.cut_inactive f ((hcut f).mp hc)).of_grows hgrows
      handed_covered := fun e he f jti hev => by
        rcases hjournal with h | ⟨e', h, -, hne, hne'⟩
        · exact hcovered f jti (hw.handed_covered e (h ▸ he) f jti hev)
        · rw [h] at he
          rcases List.mem_cons.mp he with rfl | hold
          · rcases hev with hev | hev
            · exact absurd hev (hne f jti)
            · exact absurd hev (hne' f jti)
          · exact hcovered f jti (hw.handed_covered e hold f jti hev) }

theorem tolerant (env : Env) (reqs : ReqID → Request) (i : ReqID) :
    Tolerant (contract env reqs) i := by
  intro u v hu hq
  obtain ⟨_, _, _, hd, rfl⟩ := hq
  exact contract_same hu hd (Grows.refl Family.Later.refl _) hu.family_unique rfl rfl (.inl rfl)

/-! ### The steps -/

/-- The writes that need an argument of their own. -/
def delicate : Write → Prop
  | .openFamily _ _ _ _ _ _ => True
  | .trackJTI _ _ _ => True
  | .denylistFamily _ => True
  | .release _ (.exchanged _ _ _) => False
  | .release _ (.granted _) => False
  | .release _ _ => True
  | .maintain .purgeRevocations => True
  | _ => False

theorem inactive_of_revokeFamily (h : w.families.any (·.id == f) = true) :
    Inactive f (TokenStore.revokeFamily i f w).2 := by
  obtain ⟨g, hg, hid⟩ := List.any_eq_true.mp h
  have hmem : (if g.id == f && g.isActive then
      { g with status := .revoked, revokedAt := some w.clock } else g) ∈
      TokenStore.revokeRow f w.clock w.families := mem_updateWhere.mpr ⟨g, hg, rfl⟩
  simp only [Inactive, TokenStore.revokeFamily, h, if_true]
  refine ⟨_, hmem, ?_⟩
  by_cases hactive : g.isActive = true
  · rw [if_pos (by simp [hid, hactive])]
    exact ⟨beq_iff_eq.mp hid, rfl⟩
  · rw [if_neg (by simp [hactive])]
    exact ⟨beq_iff_eq.mp hid, by simpa using hactive⟩

/-- **The other writes.** -/
theorem contract_run (hw : Inv env reqs w) {x : Write} (hx : ¬delicate x) :
    (contract env reqs).inv (x.run env i w) ∧ (contract env reqs).guar i w (x.run env i w) ∧
      (contract env reqs).rely i w (x.run env i w) := by
  have hframe := x.frame env i w
  have htables : Part.accessTokenJTIs ∉ x.touches ∧ Part.revokedJTIs ∉ x.touches := by
    cases x with
    | openFamily => exact absurd trivial hx
    | trackJTI => exact absurd trivial hx
    | denylistFamily => exact absurd trivial hx
    | maintain m =>
      cases m with
      | purgeRevocations => exact absurd trivial hx
      | _ => simp [Write.touches, Maintenance.touches]
    | _ => simp [Write.touches]
  refine contract_same hw hframe.drawn (grows_families_run env i x w)
    (unique_families_run env i x hw.family_unique) (hframe.same _ htables.1)
    (hframe.same _ htables.2) ?_
  -- what the write notes
  cases x with
  | openFamily => exact absurd trivial hx
  | denylistFamily => exact absurd trivial hx
  | revokeFamily f =>
    by_cases hany : w.families.any (·.id == f) = true
    · refine .inr ⟨⟨i, .familyRevoked f⟩, ?_, by simp, by simp, by simp⟩
      simp only [Write.run, TokenStore.revokeFamily, if_pos hany]
      rfl
    · left
      simp only [Write.run, TokenStore.revokeFamily, if_neg hany]
  | release c e =>
    cases e with
    | exchanged | granted => exact .inr ⟨_, rfl, by simp, by simp, by simp⟩
    | _ => exact absurd trivial hx
  | _ =>
    refine hframe.journal.imp id ?_
    rintro ⟨e, he, hj⟩
    refine ⟨_, hj, ?_⟩
    first
      | exact he.elim
      | (obtain rfl := he; simp)
      | (obtain ⟨_, rfl⟩ := he; simp)
      | (obtain ⟨_, _, rfl⟩ := he; simp)

/-- **The denylist half.** In a response it comes after the family was revoked. -/
theorem contract_denylist (hw : Inv env reqs w) (hrevoked : HandsOut (reqs i) → Inactive f w) :
    (contract env reqs).inv (RevocationStore.revokeByFamily i f w).2 ∧
      (contract env reqs).guar i w (RevocationStore.revokeByFamily i f w).2 ∧
      (contract env reqs).rely i w (RevocationStore.revokeByFamily i f w).2 := by
  have hcovered : ∀ f' jti, Covered reqs f' jti w →
      Covered reqs f' jti (RevocationStore.revokeByFamily i f w).2 := by
    rintro f' jti ⟨⟨t, ht, hjti, hfam⟩, hdenied⟩
    refine ⟨⟨t, ht, hjti, hfam⟩, ?_⟩
    rintro ⟨e, he, hev, hout⟩
    rcases List.mem_cons.mp he with rfl | hold
    · obtain rfl : f = f' := by simpa using hev
      obtain ⟨r, hr, hrj⟩ := RevocationStore.mem_denylistRows w.revokedJTIs ht hfam
      exact ⟨r, hr, hrj.trans hjti⟩
    · obtain ⟨r, hr, hrj⟩ := hdenied ⟨e, hold, hev, hout⟩
      exact ⟨r, List.mem_append_left _ hr, hrj⟩
  have hmoves : Moves reqs w (RevocationStore.revokeByFamily i f w).2 :=
    ⟨fun _ => le_rfl, Grows.refl Family.Later.refl _, List.subset_cons_self _ _,
      List.Subset.refl _, hcovered⟩
  refine ⟨?_, ⟨hmoves, fun _ ht => .inl ht⟩, ⟨hmoves, fun _ ht => .inl ht⟩⟩
  exact
    { family_unique := hw.family_unique
      fresh := hw.fresh
      cut_inactive := fun f' hcut => by
        obtain ⟨e, he, hev, hout⟩ := hcut
        rcases List.mem_cons.mp he with rfl | hold
        · obtain rfl : f = f' := by simpa using hev
          exact hrevoked hout
        · exact hw.cut_inactive f' ⟨e, hold, hev, hout⟩
      handed_covered := fun e he f' jti hev => by
        rcases List.mem_cons.mp he with rfl | hold
        · rcases hev with hev | hev <;> cases hev
        · exact hcovered f' jti (hw.handed_covered e hold f' jti hev) }

variable {jti : String}

theorem contract_release (hw : Inv env reqs w) {c : AccessTokenClaims} {e : Event}
    (he : e = .redeemed f jti ∨ e = .refreshed f jti) (hcovered : Covered reqs f jti w) :
    (contract env reqs).inv ({ w with released := c :: w.released }.note i e) ∧
      (contract env reqs).guar i w ({ w with released := c :: w.released }.note i e) := by
  have hne : ∀ f', e ≠ .denylisted f' := by
    rcases he with rfl | rfl <;> simp
  have hstill : ∀ f' jti', Covered reqs f' jti' w →
      Covered reqs f' jti' ({ w with released := c :: w.released }.note i e) :=
    fun f' jti' h => ⟨h.1, fun hc => h.2 ((cut_cons_of_ne (hne f')).mp hc)⟩
  refine ⟨?_, ⟨fun _ => le_rfl, Grows.refl Family.Later.refl _, List.subset_cons_self _ _,
    List.Subset.refl _, hstill⟩, fun _ ht => .inl ht⟩
  exact
    { family_unique := hw.family_unique
      fresh := hw.fresh
      cut_inactive := fun f' hcut => hw.cut_inactive f' ((cut_cons_of_ne (hne f')).mp hcut)
      handed_covered := fun e' he' f' jti' hev => by
        rcases List.mem_cons.mp he' with rfl | hold
        · have hsame : f = f' ∧ jti = jti' := by
            rcases he with rfl | rfl <;> rcases hev with hev | hev <;> cases hev <;>
              exact ⟨rfl, rfl⟩
          exact hsame.1 ▸ hsame.2 ▸ hstill f jti hcovered
        · exact hstill f' jti' (hw.handed_covered e' hold f' jti' hev) }

/-- An identifier that a request has drawn and that nobody tracks. -/
structure Own (env : Env) (i : ReqID) (jti : String) (w : World) : Prop where
  drawn : ∃ n < w.drawn i, jti = env.random i n
  untracked : ∀ t ∈ w.accessTokenJTIs, t.jti ≠ jti

theorem Own.of_drawn (h : Drawn (contract env reqs) i env jti w) : Own env i jti w := by
  obtain ⟨u, hu, rfl, hmoves, hrows⟩ := h
  have hlt : u.drawn i < (u.draw i).drawn i := by simp [World.draw]
  refine ⟨⟨_, hlt.trans_le (hmoves.drawn i), rfl⟩, fun t ht heq => ?_⟩
  rcases hrows t ht with hold | ⟨j, n, hj, hjti⟩
  · exact hu.fresh t hold (heq ▸ undrawn_next env u i)
  · exact hj (env.random_injective (hjti.symm.trans heq)).1

theorem Own.rely (h : Own env i jti w) (hrely : (contract env reqs).rely i w w') :
    Own env i jti w' := by
  obtain ⟨n, hn, rfl⟩ := h.drawn
  refine ⟨⟨n, hn.trans_le (hrely.1.drawn i), rfl⟩, fun t ht heq => ?_⟩
  rcases hrely.2 t ht with hold | ⟨j, m, hj, hjti⟩
  · exact h.untracked t hold heq
  · exact hj (env.random_injective (hjti.symm.trans heq)).1

theorem contract_addRow (hw : Inv env reqs w) (f : String) (expiry : Time)
    (hown : Own env i jti w) :
    (contract env reqs).inv
        { w with accessTokenJTIs := w.accessTokenJTIs ++ [⟨jti, f, expiry⟩] } ∧
      (contract env reqs).guar i w
        { w with accessTokenJTIs := w.accessTokenJTIs ++ [⟨jti, f, expiry⟩] } := by
  have hcovered : ∀ f' jti', Covered reqs f' jti' w → Covered reqs f' jti'
      { w with accessTokenJTIs := w.accessTokenJTIs ++ [⟨jti, f, expiry⟩] } := by
    rintro f' jti' ⟨⟨t, ht, hrow⟩, hdenied⟩
    exact ⟨⟨t, List.mem_append_left _ ht, hrow⟩, hdenied⟩
  have hrow : ∀ t ∈ w.accessTokenJTIs ++ [⟨jti, f, expiry⟩], t ∈
    w.accessTokenJTIs ∨ t.jti = jti := by
    intro t ht
    rcases List.mem_append.mp ht with h | h
    · exact .inl h
    · exact .inr (by rw [List.mem_singleton.mp h])
  obtain ⟨n, hn, hjti⟩ := hown.drawn
  refine ⟨{ hw with fresh := fun t ht => ?_, handed_covered := fun e he f' jti' hev => ?_ },
    ⟨fun _ => le_rfl, Grows.refl Family.Later.refl _, List.Subset.refl _,
      List.subset_append_left _ _, hcovered⟩, fun t ht => ?_⟩
  · rcases hrow t ht with h | h
    · exact hw.fresh t h
    · rw [h, hjti]
      exact not_undrawn_of_lt hn
  · exact hcovered f' jti' (hw.handed_covered e he f' jti' hev)
  · exact (hrow t ht).imp id fun h => ⟨n, h.trans hjti⟩

/-- **Tracking.** -/
theorem contract_track (hw : Inv env reqs w) (f : String) (expiry : Time) (hown : Own env i jti w) :
    (contract env reqs).inv (RevocationStore.trackJTI jti f expiry w).2 ∧
      (contract env reqs).guar i w (RevocationStore.trackJTI jti f expiry w).2 ∧
      Tracked f jti (RevocationStore.trackJTI jti f expiry w).2 := by
  rcases RevocationStore.trackJTI_cases jti f expiry w with ⟨⟨t, ht, hjti⟩, -⟩ | ⟨-, h⟩
  · exact absurd hjti (hown.untracked t ht)
  · rw [h]
    obtain ⟨hinv, hguar⟩ := contract_addRow hw f expiry hown
    exact ⟨hinv, hguar, ⟨_, List.mem_append_right _ (List.mem_singleton.mpr rfl), rfl, rfl⟩⟩

theorem guar_trans {w'' : World} (h : (contract env reqs).guar i w w')
    (h' : (contract env reqs).guar i w' w'') : (contract env reqs).guar i w w'' :=
  ⟨h.1.trans h'.1, fun t ht => (h'.2 t ht).elim (h.2 t) .inr⟩

/-- **Opening a family.** The family is new, so it has not been cut, and the token is tracked in the
same transaction. -/
theorem contract_openFamily (hw : Inv env reqs w) (f : Family) (now expiry : Time)
    (issueRefresh : Bool) (hown : Own env i jti w) :
    (contract env reqs).inv
        ((TokenService.createFamilyAndRefresh env i f jti now expiry
          issueRefresh true).atomically w).2 ∧
      (contract env reqs).guar i w
        ((TokenService.createFamilyAndRefresh env i f jti now expiry
          issueRefresh true).atomically w).2 ∧
      ∀ plain,
        ((TokenService.createFamilyAndRefresh env i f jti now expiry
          issueRefresh true).atomically w).1 =
          .ok plain → Covered reqs f.id jti
        ((TokenService.createFamilyAndRefresh env i f jti now expiry
          issueRefresh true).atomically w).2 := by
  rcases Call.atomically_cases
    (TokenService.createFamilyAndRefresh env i f jti now expiry issueRefresh true) w with
    ⟨plain, w', hbody, hrun⟩ | ⟨e, hrun⟩
  swap
  · rw [hrun]
    exact ⟨hw, ⟨.refl w, fun _ ht => .inl ht⟩, fun _ h => by cases h⟩
  rw [hrun]
  obtain ⟨w₁, w₂, hcreate, htrack, hrest⟩ := TokenService.createFamilyAndRefresh_ok hbody
  obtain ⟨hnew, rfl⟩ := TokenStore.createFamily_ok hcreate
  obtain ⟨hinv₁, hguar₁, hrely₁⟩ : (contract env reqs).inv { w with
    families := w.families ++ [f] } ∧
      (contract env reqs).guar i w { w with families := w.families ++ [f] } ∧
      (contract env reqs).rely i w { w with families := w.families ++ [f] } :=
    contract_same hw (fun _ => le_rfl) (grows_append Family.Later.refl _ _)
      (hw.family_unique.append_singleton fun k hk f' hf' hkey =>
        (hnew f' hf').1 (Option.some.inj (hkey.trans hk.symm))) rfl rfl (.inl rfl)
  have hown₁ := hown.rely hrely₁
  rcases RevocationStore.trackJTI_cases jti f.id expiry { w with
    families := w.families ++ [f] } with
    ⟨⟨t, ht, hjti⟩, -⟩ | ⟨-, heq⟩
  · exact absurd hjti (hown₁.untracked t ht)
  rw [show TokenService.trackInTransaction true jti f.id expiry { w with
    families := w.families ++ [f] } =
    _ from heq] at htrack
  obtain rfl := (Prod.mk.inj htrack).2
  obtain ⟨hinv₂, hguar₂⟩ := contract_addRow hinv₁ f.id expiry hown₁
  have hcovered : Covered reqs f.id jti
      { w with families := w.families ++ [f]
               accessTokenJTIs := w.accessTokenJTIs ++ [⟨jti, f.id, expiry⟩] } :=
    ⟨⟨_, List.mem_append_right _ (List.mem_singleton.mpr rfl), rfl, rfl⟩,
      fun hcut => absurd hcut (hw.not_cut_of_new fun g hg => (hnew g hg).1)⟩
  rcases hrest with ⟨-, rfl⟩ | ⟨-, hrefresh⟩
  · exact ⟨hinv₂, guar_trans hguar₁ hguar₂, fun _ _ => hcovered⟩
  · have hstep := contract_run (i := i) hinv₂
      (x := .createRefreshToken f.id now env.tokens.refreshTokenExpiry) id
    rw [Write.run, hrefresh] at hstep
    exact ⟨hstep.1, guar_trans (guar_trans hguar₁ hguar₂) hstep.2.1,
      fun _ _ => hstep.2.1.1.covered _ _ hcovered⟩

/-! ### The requests -/

variable {s : World}

theorem ensures_denylistFamilyJTIs (hs : Inv env reqs s) (hrevoked : Inactive f s) :
    Ensures (contract env reqs) i (fun _ _ => True) (TokenService.denylistFamilyJTIs i f) s := by
  have hdeny := contract_denylist (i := i) hs fun _ => hrevoked
  exact .attempt_exec (fun _ => ⟨hdeny.1, hdeny.2.1⟩) (fun _ _ _ _ => trivial) fun h => h.elim

/-- **A response.** Both halves keep the contract, for a family that exists. -/
theorem ensures_runReuseHalves (hs : Inv env reqs s) (hexists : ∃ g ∈ s.families, g.id = f) :
    Ensures (contract env reqs) i (fun _ _ => True) (TokenService.runReuseHalves i f) s := by
  obtain ⟨g, hg, hid⟩ := hexists
  have hany : s.families.any (·.id == f) = true := List.any_eq_true.mpr ⟨g, hg, by simp [hid]⟩
  have hfirst := contract_run (i := i) hs (x := .revokeFamily f) id
  refine .bind (Ensures.attempt_exec (fun _ => ⟨hfirst.1, hfirst.2.1⟩) (fun _ t hst ht => ?_)
    fun h => h.elim)
  have hrevoked : Inactive f t := (inactive_of_revokeFamily hany).of_grows hst.1.families
  exact Ensures.seq (ensures_denylistFamilyJTIs ht hrevoked) fun _ _ _ => trivial

theorem each_recordIssuance {req : IssueRequest} {now : Time} :
    (MintIssuer.recordIssuance i req now jti).Each (Uses env i fun x => ¬delicate x) := by
  unfold MintIssuer.recordIssuance
  split
  · exact each_wrapErr (uses_store (.insertIssuance _) id fun _ => rfl)
  · trivial

theorem contract_uses (hw : Inv env reqs w) (h : Uses env i (fun x => ¬delicate x) w w') :
    (contract env reqs).inv w' ∧ (contract env reqs).guar i w w' ∧
      (contract env reqs).rely i w w' := by
  rcases h with hq | ⟨x, hx, rfl⟩
  · exact tolerant env reqs i w w' hw hq
  · exact contract_run hw hx

/-- What the answer to a request that hands out a family's token says. -/
def Handed (i : ReqID) (resp : TokenResponse) (t : World) : Prop :=
  ∃ e ∈ t.journal, e.ctx = i ∧
    ∃ f, e.event = .redeemed f resp.accessToken.jti ∨ e.event = .refreshed f resp.accessToken.jti

/-- **A refresh.** From the second look at the family on, its token is covered. -/
theorem ensures_refreshToken {req : RefreshTokenRequest} (hs : Inv env reqs s) :
    Ensures (contract env reqs) i (Handed i) (TokenService.refreshToken env i req) s := by
  have hC := tolerant env reqs i
  have hpass : ∀ u v, (contract env reqs).inv u → Uses env i (fun x => ¬delicate x) u v →
      (contract env reqs).inv v ∧ (contract env reqs).guar i u v ∧ (contract env reqs).rely i u v :=
    fun u v hu huv => contract_uses hu huv
  refine TokenService.ensures_refreshToken hC hs fun rt family c scope t₁ h₁ hi₁ hchecked => ?_
  obtain ⟨v, -, -, hvt, hfam⟩ := hchecked.familyRead
  obtain ⟨hfamily, hfid⟩ := TokenStore.getFamily_ok hfam
  have hconsume := contract_run (i := i) hi₁ (x := .consumeRefreshToken rt.id) id
  refine TokenService.ensures_consumeOrRevokeFamily ⟨hconsume.1, hconsume.2.1⟩ ?_ ?_
  · intro t hst ht
    obtain ⟨g, hg, hlater⟩ := (hvt.1.trans hst.1).families family hfamily
    exact ensures_runReuseHalves ht ⟨g, hg, hlater.id_eq.trans hfid⟩
  intro rt' _ t₂ h₂ hi₂
  refine TokenService.ensures_rotate hC hi₂ fun jkt now res now' jti t₃ h₃ hi₃ _ hdrawn _ _ => ?_
  have hown₃ := Own.of_drawn hdrawn
  refine .pass each_recordIssuance hpass hi₃ fun _ t₄ h₄ hi₄ => ?_
  -- track the token
  obtain ⟨hinv, hguar, htracked⟩ := contract_track hi₄ family.id
    (now + env.tokens.accessTokenExpiry) (hown₃.rely h₄)
  refine .bind (Safe.bind (Ensures.attempt_exec (fun _ => ⟨hinv, hguar⟩)
    (fun _ t₅ h₅ hi₅ => ?_) fun h => h.elim))
  -- look at the family again
  simp only [TokenService.recheckFamily, Prog.bind_assoc]
  refine hC.readWrapped hi₅ fun family' t₆ h₆ hi₆ hagain => ?_
  split
  · rename_i hactive
    have hcovered : Covered reqs family'.id jti t₆ := by
      obtain ⟨u, hu, h₅u, hu₆, hread⟩ := hagain
      obtain ⟨hmem, hid⟩ := TokenStore.getFamily_ok hread
      obtain ⟨row, hrow, hjti, hfamrow⟩ := htracked
      refine hu₆.1.covered _ _
        ⟨⟨row, h₅u.1.tracked (h₅.1.tracked hrow), hjti, hfamrow.trans hid.symm⟩, fun hcut => ?_⟩
      exact absurd hcut (hu.not_cut_of_active hmem hactive)
    rw [Prog.pure_bind]
    have hcreate := contract_run (i := i) hi₆
      (x := .createRefreshToken family'.id now env.tokens.refreshTokenExpiry) id
    refine .bind (Ensures.exec (fun _ => ⟨hcreate.1, hcreate.2.1⟩) fun plain _ _ t₇ h₇ hi₇ => ?_)
    have hcovered₇ := h₇.1.covered _ _ (hcreate.2.1.1.covered _ _ hcovered)
    have hrelease := fun c => contract_release (i := i) (c := c) hi₇ (.inr rfl) hcovered₇
    refine .bind (safe_step fun _ => ⟨(hrelease _).1, (hrelease _).2, fun t₈ h₈ _ => ?_⟩)
    exact ⟨_, h₈.1.journal List.mem_cons_self, rfl, family'.id, .inr rfl⟩
  · rw [Prog.bind_assoc]
    have hrevoke := contract_run (i := i) hi₆ (x := .revokeIssuance jti) id
    exact .bind (Ensures.attempt_exec (fun _ => ⟨hrevoke.1, hrevoke.2.1⟩) (fun _ _ _ _ => trivial)
      fun h => h.elim)

/-- **A redemption.** -/
theorem ensures_exchangeCode {req : ExchangeCodeRequest} (hs : Inv env reqs s) :
    Ensures (contract env reqs) i (Handed i) (TokenService.exchangeCode env i req) s := by
  have hC := tolerant env reqs i
  have hconsume := contract_run (i := i) hs (x := .consumeCode (env.hashSHA256 req.code)) id
  refine TokenService.ensures_exchangeCode ⟨hconsume.1, hconsume.2.1⟩ ?_ ?_
  · intro sess t ht
    refine TokenService.ensures_handleCodeReuse hC ht fun fam t' _ ht' hread => ?_
    obtain ⟨u, -, -, hut, hfam⟩ := hread
    obtain ⟨hmem, -⟩ := TokenStore.getFamilyByAuthSessionID_ok hfam
    obtain ⟨g, hg, hlater⟩ := hut.1.families fam hmem
    unfold TokenService.respondToCodeReuse
    split
    · exact .seq (ensures_runReuseHalves ht' ⟨g, hg, hlater.id_eq⟩)
        fun _ _ _ => trivial
    · rename_i hinactive
      have hrevoked : Inactive fam.id t' :=
        ⟨g, hg, hlater.id_eq, hlater.inactive (Bool.eq_false_iff.mpr hinactive)⟩
      exact .seq (ensures_denylistFamilyJTIs ht' hrevoked) fun _ _ _ => trivial
  intro sess _ t₁ h₁ hi₁
  refine TokenService.ensures_redeem hC hi₁
    fun c jkt now res now' jti t₂ h₂ hi₂ _ _ hdrawn _ _ => ?_
  refine .pass each_recordIssuance (fun u v hu huv => contract_uses hu huv) hi₂
    fun _ t₃ h₃ hi₃ => ?_
  have hown₃ := (Own.of_drawn hdrawn).rely h₃
  refine hC.pass (each_generateRandomString env i) hi₃ fun familyID t₄ h₄ hi₄ => ?_
  -- the store answers, so the token is tracked
  have hguar₄ := hC.guar_refl hi₄
  refine .bind ⟨fun _ => ⟨hi₄, hguar₄, fun t₅ h₅ hi₅ => ?_⟩, fun h => h.elim⟩
  obtain ⟨hinv, hguar, hcovered⟩ := contract_openFamily hi₅
    (TokenService.familyOf sess familyID now) now (now + env.tokens.accessTokenExpiry)
    (hasGrantType c.grantTypes "refresh_token") ((hown₃.rely h₄).rely h₅)
  refine .bind (Ensures.exec (fun _ => ⟨hinv, hguar⟩) fun plain hplain _ t₆ h₆ hi₆ => ?_)
  have hcovered₆ := h₆.1.covered _ _ (hcovered plain hplain)
  have hrelease := fun c => contract_release (i := i) (c := c) hi₆ (.inl rfl) hcovered₆
  refine .bind (safe_step fun _ => ⟨(hrelease _).1, (hrelease _).2, fun t₇ h₇ _ => ?_⟩)
  exact ⟨_, h₇.1.journal List.mem_cons_self, rfl, familyID, .inl rfl⟩

theorem kinds_of_not_handsOut {req : Request} (hreq : ¬HandsOut req)
    (hpurge : req ≠ .maintain .purgeRevocations) {x : Write} (hx : req.kinds x) :
    ¬delicate x ∨ ∃ f, x = .denylistFamily f := by
  cases req with
  | exchangeCode => exact absurd trivial hreq
  | refreshToken => exact absurd trivial hreq
  | maintain m =>
    obtain rfl : x = .maintain m := hx
    cases m with
    | purgeRevocations => exact absurd rfl hpurge
    | _ => exact .inl id
  | _ =>
    cases x with
    | denylistFamily f => exact .inr ⟨f, rfl⟩
    | release c e => cases e <;> first | exact .inl id | exact hx.elim
    | _ => first | exact .inl id | exact hx.elim

theorem safe_serve (hpurge : ∀ i, reqs i ≠ .maintain .purgeRevocations) (hs : Inv env reqs s) :
    Ensures (contract env reqs) i
      (fun resp t => HandsOut (reqs i) → ∃ tr, resp = .token tr ∧ Handed i tr t)
      (serve env i (reqs i)) s := by
  by_cases hout : HandsOut (reqs i)
  · cases hreq : reqs i with
    | exchangeCode req =>
      exact .seq (ensures_exchangeCode hs) fun tr t h _ => ⟨tr, rfl, h⟩
    | refreshToken req =>
      exact .seq (ensures_refreshToken hs) fun tr t h _ => ⟨tr, rfl, h⟩
    | _ =>
      rw [hreq] at hout
      exact hout.elim
  · refine Safe.mono (Safe.of_each_inv (uses_serve env i (reqs i)) (fun u v hu huv => ?_) hs)
      (fun _ _ _ h => absurd h hout) fun _ _ h => h
    rcases huv with hq | ⟨x, hx, rfl⟩
    · exact ⟨(tolerant env reqs i u v hu hq).1, (tolerant env reqs i u v hu hq).2.1⟩
    · rcases kinds_of_not_handsOut hout (hpurge i) hx with hplain | ⟨f, rfl⟩
      · exact ⟨(contract_run hu hplain).1, (contract_run hu hplain).2.1⟩
      · have hdeny := contract_denylist (i := i) (f := f) hu fun h => absurd h hout
        exact ⟨hdeny.1, hdeny.2.1⟩

end ReuseCut

open ReuseCut

/-- **Reuse detection cuts every access token of the family.** Take any store that satisfies the
invariant, any requests among which none purges the denylist, and any interleaving of their calls
with none of them failing. Once some response to a replay has been through its second half for a
family, every access token of that family that a redemption or a refresh has returned is on the
denylist. -/
theorem TokenService.reuse_cuts_family {env : Env} {reqs : ReqID → Request} {w : World}
    (hw : Inv env reqs w) (hpurge : ∀ i, reqs i ≠ .maintain .purgeRevocations)
    (sched : Schedule ReqID) (hfaults : ∀ e ∈ sched, e.2 = false) {f : String} {i : ReqID}
    (hresponse : HandsOut (reqs i))
    (hfinished : ⟨i, .denylisted f⟩ ∈ ((Server.start env reqs w).exec sched).store.journal) :
    ∀ j resp, HandsOut (reqs j) → ((Server.start env reqs w).exec sched).procs j = .ret resp →
      ∃ tr f', resp = .token tr ∧
        (⟨j, .redeemed f' tr.accessToken.jti⟩ ∈
          ((Server.start env reqs w).exec sched).store.journal ∨
          ⟨j, .refreshed f' tr.accessToken.jti⟩ ∈
            ((Server.start env reqs w).exec sched).store.journal) ∧
        (f' = f → Denylisted tr.accessToken.jti ((Server.start env reqs w).exec sched).store) := by
  have hstart : Pool.Ready (contract env reqs)
      (fun i resp t => HandsOut (reqs i) → ∃ tr, resp = .token tr ∧ Handed i tr t)
      (fun _ _ _ => True) (Server.start env reqs w) := ⟨hw, fun i t _ ht => safe_serve hpurge ht⟩
  have hready := hstart.exec sched (Pool.admitted_of_all (fun _ _ _ => trivial) sched
    fun e he hbad => by rw [hfaults e he] at hbad; cases hbad)
  intro j resp hout hret
  obtain ⟨tr, rfl, e, he, rfl, f', hev⟩ := hready.post hret hout
  refine ⟨tr, f', rfl, ?_, ?_⟩
  · obtain ⟨ctx, event⟩ := e
    rcases hev with rfl | rfl
    · exact .inl he
    · exact .inr he
  · rintro rfl
    exact (hready.inv.handed_covered e he _ _ hev).2 ⟨_, hfinished, rfl, hresponse⟩

/-- A code is redeemed, the refresh token that came with it is presented, and presented again. -/
def Sample.replay : ReqID → Request
  | 0 => Sample.redeem "code"
  | _ => Sample.refresh (tally 0 2)

/-- If the entry says that a family's token was handed out, then it is this family's. -/
def Sample.handsOutOf (f : String) (e : Entry) : Bool :=
  match e.event with
  | .redeemed f' _ => f' == f
  | .refreshed f' _ => f' == f
  | _ => true

/-- The replay sets off the response, and the token of the refresh before it is on the denylist. -/
theorem TokenService.reuse_cuts_family_sample :
    ∃ tr, ((Server.start Env.plain Sample.replay (Sample.world [Sample.session "s" "code"])).exec
        (Sample.turn 0 ++ Sample.turn 1 ++ Sample.turn 2)).procs 1 = .ret (.token tr) ∧
      Denylisted tr.accessToken.jti
        ((Server.start Env.plain Sample.replay (Sample.world [Sample.session "s" "code"])).exec
          (Sample.turn 0 ++ Sample.turn 1 ++ Sample.turn 2)).store := by
  have hinv : Inv Env.plain Sample.replay (Sample.world [Sample.session "s" "code"]) := by
    constructor <;> simp [Sample.world, World.empty, UniqueKey, Cut]
  have hpurge : ∀ i, Sample.replay i ≠ .maintain .purgeRevocations := by
    intro i
    cases i <;> simp [Sample.replay, Sample.redeem, Sample.refresh]
  have hsome : (Server.tokens ((Server.start Env.plain Sample.replay
      (Sample.world [Sample.session "s" "code"])).exec
      (Sample.turn 0 ++ Sample.turn 1 ++ Sample.turn 2)) 1).isSome := by decide +kernel
  obtain ⟨tr, htr⟩ := Option.isSome_iff_exists.mp hsome
  have hret := Server.ret_of_tokens htr
  obtain ⟨tr', f', heq, hev, hdenied⟩ := TokenService.reuse_cuts_family hinv hpurge
    (Sample.turn 0 ++ Sample.turn 1 ++ Sample.turn 2) (by decide) (i := 2) (f := tally 0 1) trivial
    (by decide +kernel) 1 _ trivial hret
  obtain rfl := Response.token.inj heq
  have hfamily : ∀ e ∈ ((Server.start Env.plain Sample.replay
      (Sample.world [Sample.session "s" "code"])).exec
      (Sample.turn 0 ++ Sample.turn 1 ++ Sample.turn 2)).store.journal,
      Sample.handsOutOf (tally 0 1) e = true := by decide +kernel
  refine ⟨tr, hret, hdenied ?_⟩
  rcases hev with he | he
  · exact beq_iff_eq.mp (hfamily _ he)
  · exact beq_iff_eq.mp (hfamily _ he)

end AuthServer
