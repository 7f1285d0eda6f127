import AuthServer.Service.ExchangeRules
import AuthServer.Service.Tables

/-!
# The contract of consent revocation

`RevokeConsent` marks the grant row and then, in one statement, revokes every issuance row in the
lineage of the grant. An exchange that is under way meanwhile writes its row, and only then looks
again: at the row of its subject token and, if a consent grant let it pass, at that grant. This
module is the rely/guarantee contract under which the two are shown to leave no gap.

The lineage of a grant at the end of a run holds more than what the grant let pass: a self-exchange
for the resource asks for no consent, yet its row is recorded under the client the user faced, so
that a later cascade finds it. One that starts after the cascade is none of its business. `Derived`
is the lineage without those: what hangs from a row that a cascade has seen, or from one that the
grant's consent gate let pass. -/

namespace AuthServer

open Interleave Table

namespace ConsentCascade

/-! ### Lineage -/

structure Consent where
  userID : String
  clientID : String
  resourceID : String
  deriving DecidableEq, Repr

def Consent.ofGrant (g : ConsentGrant) : Consent := ⟨g.userID, g.clientID, g.resourceID⟩

def Consent.cascaded (T : Consent) : Event := .cascaded T.userID T.clientID T.resourceID

/-- The gate of an exchange that it let pass. -/
def Consent.gate (T : Consent) : Gate := .consent T.userID T.clientID T.resourceID

def Consent.isRoot (T : Consent) (row : Issuance) : Bool :=
  IssuanceStore.isRoot T.userID T.clientID T.resourceID row

def Consent.Reaches (T : Consent) (rows : List Issuance) (jti : String) : Prop :=
  jti ∈ IssuanceStore.lineage T.userID T.clientID T.resourceID rows

/-- A token with this identifier has been handed out. -/
def Out (u : World) (jti : String) : Prop := ∃ c ∈ u.released, c.jti = jti

def Revoked (u : World) (jti : String) : Prop :=
  ∃ row ∈ u.issuances, row.jti = jti ∧ row.isRevoked = true

/-- A cascade of the consent came after the row was written. -/
def Seen (T : Consent) (u : World) (jti : String) : Prop :=
  ∃ later earlier ctx, u.journal = later ++ ⟨ctx, T.cascaded⟩ :: earlier ∧
    ∀ ctx', (⟨ctx', .issued jti⟩ : Entry) ∉ later

/-- An exchange that handed the token out had passed the consent gate. -/
def Gated (T : Consent) (u : World) (jti : String) : Prop :=
  ∃ parent, u.Happened (.exchanged parent jti T.gate)

/-- What hangs from a row minted under the consent that a cascade has seen or the consent gate let
pass. -/
inductive Derived (T : Consent) (u : World) : String → Prop
  | root {row : Issuance} (hrow : row ∈ u.issuances) (hroot : T.isRoot row = true)
      (hcause : Seen T u row.jti ∨ Gated T u row.jti) : Derived T u row.jti
  | child {row : Issuance} (hrow : row ∈ u.issuances) (hmint : IssuanceStore.isMintRow row = true)
      (hne : row.parentJTI ≠ "") (hparent : Derived T u row.parentJTI) : Derived T u row.jti

variable {rows : List Issuance} {row : Issuance}

theorem reaches_root {T : Consent} (hrow : row ∈ rows) (hroot : T.isRoot row = true) :
    T.Reaches rows row.jti :=
  IssuanceStore.mem_lineage.mpr
    (.root (List.mem_map.mpr ⟨row, List.mem_filter.mpr ⟨hrow, hroot⟩, rfl⟩))

theorem reaches_child {T : Consent} (hrow : row ∈ rows) (hmint : IssuanceStore.isMintRow row = true)
    (hne : row.parentJTI ≠ "") (hparent : T.Reaches rows row.parentJTI) :
      T.Reaches rows row.jti := by
  refine IssuanceStore.mem_lineage.mpr (.child (IssuanceStore.mem_lineage.mp hparent) ?_)
  exact List.mem_map.mpr ⟨row, List.mem_filter.mpr ⟨hrow, by simp [hmint, hne]⟩, rfl⟩

theorem reaches_induction {T : Consent} {P : String → Prop}
    (hroot : ∀ row ∈ rows, T.isRoot row = true → P row.jti)
    (hchild : ∀ row ∈ rows, IssuanceStore.isMintRow row = true → row.parentJTI ≠ "" →
      T.Reaches rows row.parentJTI → P row.parentJTI → P row.jti)
    {jti : String} (h : T.Reaches rows jti) : P jti := by
  have hreach := IssuanceStore.mem_lineage.mp h
  clear h
  induction hreach with
  | root hk =>
    obtain ⟨row, hrow, rfl⟩ := List.mem_map.mp hk
    exact hroot row (List.mem_of_mem_filter hrow) (List.of_mem_filter hrow)
  | child hp hlink ih =>
    obtain ⟨row, hrow, heq⟩ := List.mem_map.mp hlink
    obtain ⟨rfl, rfl⟩ := Prod.mk.inj heq
    have hcond := List.of_mem_filter hrow
    simp only [Bool.and_eq_true, bne_iff_ne] at hcond
    exact hchild row (List.mem_of_mem_filter hrow) hcond.1 hcond.2
      (IssuanceStore.mem_lineage.mpr hp) ih

theorem Derived.reaches {T : Consent} {u : World} {jti : String} (h : Derived T u jti) :
    T.Reaches u.issuances jti := by
  induction h with
  | root hrow hroot _ => exact reaches_root hrow hroot
  | child hrow hmint hne _ ih => exact reaches_child hrow hmint hne ih

theorem isMintRow_of_isRoot {T : Consent} (h : T.isRoot row = true) :
    IssuanceStore.isMintRow row = true := by
  simp only [Consent.isRoot, IssuanceStore.isRoot, Bool.and_eq_true] at h
  exact h.1.1.1

theorem exists_row_of_reaches {T : Consent} {jti : String} (h : T.Reaches rows jti) : ∃ row ∈ rows,
    row.jti = jti ∧ IssuanceStore.isMintRow row = true :=
  reaches_induction (P := fun jti => ∃ row ∈ rows, row.jti = jti ∧
    IssuanceStore.isMintRow row = true)
    (fun row hrow hroot => ⟨row, hrow, rfl, isMintRow_of_isRoot hroot⟩)
    (fun row hrow hmint _ _ _ => ⟨row, hrow, rfl, hmint⟩) h

theorem Derived.ne_empty {T : Consent} {u : World} {jti : String}
    (h : Derived T u jti) : jti ≠ "" := by
  obtain ⟨row, -, rfl, hmint⟩ := exists_row_of_reaches h.reaches
  simp only [IssuanceStore.isMintRow, Bool.and_eq_true, bne_iff_ne] at hmint
  exact hmint.2

/-! ### History -/

/-- The later history extends the earlier one. -/
def Extends (u v : World) : Prop := ∃ new, v.journal = new ++ u.journal

/-- The event happened on the way from one world to the other. -/
def Since (u v : World) (e : Event) : Prop :=
  ∃ new ctx, v.journal = new ++ u.journal ∧ ⟨ctx, e⟩ ∈ new

theorem Extends.refl (u : World) : Extends u u := ⟨[], rfl⟩

theorem Extends.trans {u v x : World} (h : Extends u v) (h' : Extends v x) : Extends u x := by
  obtain ⟨new, hnew⟩ := h
  obtain ⟨new', hnew'⟩ := h'
  exact ⟨new' ++ new, by rw [hnew', hnew, List.append_assoc]⟩

theorem Extends.of_cons {u v : World} {e : Entry} (h : v.journal = e :: u.journal) : Extends u v :=
  ⟨[e], h⟩

variable {e : Event}

theorem Extends.happened {u v : World} (h : Extends u v) (he : u.Happened e) : v.Happened e := by
  obtain ⟨new, hnew⟩ := h
  obtain ⟨ctx, hctx⟩ := he
  exact ⟨ctx, by rw [hnew]; exact List.mem_append_right new hctx⟩

theorem Extends.since {u v : World} (h : Extends u v) (he : v.Happened e) :
    u.Happened e ∨ Since u v e := by
  obtain ⟨new, hnew⟩ := h
  obtain ⟨ctx, hctx⟩ := he
  rw [hnew] at hctx
  rcases List.mem_append.mp hctx with hn | ho
  · exact .inr ⟨new, ctx, hnew, hn⟩
  · exact .inl ⟨ctx, ho⟩

theorem Since.cases {u v x : World} (h : Since u x e) (huv : Extends u v) (hvx : Extends v x) :
    Since u v e ∨ Since v x e := by
  obtain ⟨new, ctx, hnew, he⟩ := h
  obtain ⟨a, ha⟩ := huv
  obtain ⟨b, hb⟩ := hvx
  have heq : new = b ++ a := by
    rw [hb, ha, ← List.append_assoc] at hnew
    exact (List.append_cancel_right hnew).symm
  rw [heq] at he
  rcases List.mem_append.mp he with hb' | ha'
  · exact .inr ⟨b, ctx, hb, hb'⟩
  · exact .inl ⟨a, ctx, ha, ha'⟩

theorem Since.after {u v x : World} (huv : Extends u v) (h : Since v x e) : Since u x e := by
  obtain ⟨new, ctx, hnew, he⟩ := h
  obtain ⟨a, ha⟩ := huv
  exact ⟨new ++ a, ctx, by rw [hnew, ha, List.append_assoc], List.mem_append_left a he⟩

theorem not_since_of_eq {u v : World} (h : v.journal = u.journal) : ¬Since u v e := by
  rintro ⟨new, ctx, hnew, he⟩
  have : new = [] := by
    rw [h] at hnew
    exact List.self_eq_append_left.mp hnew
  rw [this] at he
  cases he

theorem Since.eq_of_cons {u v : World} {ctx : ReqID} {e' : Event}
    (hv : v.journal = ⟨ctx, e'⟩ :: u.journal) (h : Since u v e) : e = e' := by
  obtain ⟨new, ctx', hnew, he⟩ := h
  have : new = [⟨ctx, e'⟩] := by
    have happend : [⟨ctx, e'⟩] ++ u.journal = new ++ u.journal := hv.symm.trans hnew
    exact (List.append_cancel_right happend).symm
  rw [this, List.mem_singleton] at he
  exact (Entry.mk.inj he).2

theorem Seen.before {T : Consent} {u v : World} {jti : String} (h : Seen T v jti)
    (huv : Extends u v)
    (hnot : ¬Since u v T.cascaded) : Seen T u jti := by
  obtain ⟨later, earlier, ctx, hv, hlater⟩ := h
  obtain ⟨new, hnew⟩ := huv
  have hsplit : later ++ ⟨ctx, T.cascaded⟩ :: earlier = new ++ u.journal := by rw [← hv, hnew]
  rcases List.append_eq_append_iff.mp hsplit with ⟨mid, hmid, htail⟩ | ⟨mid, hmid, htail⟩
  · cases mid with
    | nil =>
      refine ⟨[], earlier, ctx, ?_, by simp⟩
      simpa using htail.symm
    | cons e rest =>
      -- the cascade would be among the new entries
      obtain ⟨rfl, -⟩ := List.cons.inj htail
      exact absurd ⟨new, ctx, hnew, by rw [hmid]; simp⟩ hnot
  · exact ⟨mid, earlier, ctx, htail, fun ctx' hmem => hlater ctx' (by rw [hmid]; simp [hmem])⟩

/-! ### The contract -/

structure GrantLater (g g' : ConsentGrant) : Prop where
  same : g' = { g with revokedAt := g'.revokedAt }
  revoked : g.revokedAt.isSome = true → g'.revokedAt.isSome = true

theorem GrantLater.refl (g : ConsentGrant) : GrantLater g g := ⟨rfl, fun h => h⟩

variable {g g' : ConsentGrant}

theorem GrantLater.trans {g'' : ConsentGrant} (h : GrantLater g g') (h' : GrantLater g' g'') :
    GrantLater g g'' := by
  refine ⟨?_, fun hg => h'.revoked (h.revoked hg)⟩
  rw [h'.same, h.same]

theorem GrantLater.ofGrant_eq (h : GrantLater g g') : Consent.ofGrant g' = Consent.ofGrant g := by
  rw [h.same]
  rfl

theorem GrantLater.id_eq (h : GrantLater g g') : g'.id = g.id := by
  rw [h.same]

section Contract

variable (env : Env) (w : World)

/-- The identifier was drawn since the start of the run, and no token with it is out. -/
def Pending (u : World) (jti : String) : Prop := Undrawn env w jti ∧ ¬Out u jti

/-- What holds between any two store calls of a run that started in `w`. -/
structure Inv (u : World) : Prop where
  resources : u.resources = w.resources
  drawn : ∀ j, w.drawn j ≤ u.drawn j
  unique : UniqueKey Issuance.key u.issuances
  fresh : ∀ row ∈ u.issuances, ¬Undrawn env u row.jti
  out : ∀ c ∈ u.released, ¬Undrawn env u c.jti
  /-- A row is written only from a token that is out. -/
  parents : ∀ row ∈ u.issuances, ¬Pending env w u row.parentJTI
  consents : UniqueKey (fun g => some (Consent.ofGrant g)) u.consentGrants
  exchanged : ∀ parent jti gate, u.Happened (.exchanged parent jti gate) → Out u jti
  /-- What a consent gate let pass is recorded under the consent. -/
  gated : ∀ T : Consent, T.clientID ≠ "" → ∀ jti, Gated T u jti →
    ∃ row ∈ u.issuances, row.jti = jti ∧ T.isRoot row = true
  /-- No grant comes back after its cascade. -/
  dead : ∀ T : Consent, u.Happened T.cascaded → ∀ g ∈ u.consentGrants, Consent.ofGrant g = T →
    g.revokedAt.isSome = true
  /-- **Nothing slips through.** -/
  settled : ∀ T : Consent, u.Happened T.cascaded → ∀ jti, Derived T u jti →
    Out u jti → Revoked u jti

/-- What may happen while someone watches who owns some identifiers. -/
structure Moves (own : String → Prop) (u v : World) : Prop where
  drawn : ∀ j, u.drawn j ≤ v.drawn j
  history : Extends u v
  /-- A cascade leaves nothing in its lineage unrevoked. -/
  swept : ∀ T : Consent, Since u v T.cascaded → ∀ jti, T.Reaches u.issuances jti → Revoked v jti
  exchanged : ∀ parent jti gate, Since u v (.exchanged parent jti gate) →
    Pending env w u jti ∧ ¬own jti
  rows : Grows Issuance.Later u.issuances v.issuances
  added : ∀ row ∈ v.issuances,
    (∃ row₀ ∈ u.issuances, Issuance.Later row₀ row) ∨ Pending env w u row.jti ∧ ¬own row.jti
  released : ∀ jti, Out u jti → Out v jti
  kept : ∀ jti, own jti → Out v jti → Out u jti
  grants : ∃ f, (∀ g, GrantLater g (f g)) ∧ v.consentGrants = u.consentGrants.map f

end Contract

variable {env : Env} {w : World} {own : String → Prop} {u v x : World} {T : Consent} {jti : String}

theorem Pending.before (h : Pending env w v jti) (hmono : ∀ jti, Out u jti → Out v jti) :
    Pending env w u jti :=
  ⟨h.1, fun hout => h.2 (hmono jti hout)⟩

theorem Revoked.mono (h : Revoked u jti) (hrows : Grows Issuance.Later u.issuances v.issuances) :
    Revoked v jti := by
  obtain ⟨row, hrow, hjti, hrev⟩ := h
  obtain ⟨row', hrow', hlater⟩ := hrows row hrow
  exact ⟨row', hrow', hlater.jti_eq.trans hjti, hlater.revoked hrev⟩

theorem Revoked.getByJTI (hu : UniqueKey Issuance.key u.issuances) (hjti : jti ≠ "")
    (h : Revoked u jti) :
    ∃ row, IssuanceStore.getByJTI jti u = .ok (some row) ∧ row.isRevoked = true := by
  obtain ⟨row, hrow, rfl, hrevoked⟩ := h
  refine ⟨row, ?_, hrevoked⟩
  unfold IssuanceStore.getByJTI
  cases hfind : u.issuances.find? fun i => i.jti == row.jti && row.jti != "" with
  | none => simpa [hjti] using List.find?_eq_none.mp hfind row hrow
  | some row' =>
    have hfound : row'.jti = row.jti := by simpa [hjti] using List.find?_some hfind
    rw [hu row' (List.mem_of_find?_eq_some hfind) row hrow row.jti
      (Issuance.key_eq_some.mpr ⟨hfound, hjti⟩) (Issuance.key_eq_some.mpr ⟨rfl, hjti⟩)]

theorem reaches_mono {rows' : List Issuance} (hrows : Grows Issuance.Later rows rows')
    (h : T.Reaches rows jti) : T.Reaches rows' jti := by
  refine reaches_induction (fun row hrow hroot => ?_) (fun row hrow hmint hne _ ih => ?_) h
  · obtain ⟨row', hrow', hlater⟩ := hrows row hrow
    rw [← hlater.jti_eq]
    exact reaches_root hrow' ((hlater.isRoot_eq _ _ _).trans hroot)
  · obtain ⟨row', hrow', hlater⟩ := hrows row hrow
    rw [← hlater.jti_eq]
    exact reaches_child hrow' (hlater.isMintRow_eq.trans hmint) (by rwa [hlater.parentJTI_eq])
      (by rwa [hlater.parentJTI_eq])

theorem root_mono (h : ∃ row ∈ u.issuances, row.jti = jti ∧ T.isRoot row = true)
    (hrows : Grows Issuance.Later u.issuances v.issuances) :
    ∃ row ∈ v.issuances, row.jti = jti ∧ T.isRoot row = true := by
  obtain ⟨row, hrow, hjti, hroot⟩ := h
  obtain ⟨row', hrow', hlater⟩ := hrows row hrow
  exact ⟨row', hrow', hlater.jti_eq.trans hjti, (hlater.isRoot_eq _ _ _).trans hroot⟩

theorem Moves.refl (u : World) : Moves env w own u u where
  drawn := fun _ => le_rfl
  history := .refl u
  swept := fun _ h => absurd h (not_since_of_eq rfl)
  exchanged := fun _ _ _ h => absurd h (not_since_of_eq rfl)
  rows := .refl Issuance.Later.refl _
  added := fun row hrow => .inl ⟨row, hrow, .refl row⟩
  released := fun _ h => h
  kept := fun _ _ h => h
  grants := ⟨id, GrantLater.refl, (List.map_id _).symm⟩

theorem Moves.trans (h : Moves env w own u v) (h' : Moves env w own v x) : Moves env w own u x where
  drawn := fun j => (h.drawn j).trans (h'.drawn j)
  history := h.history.trans h'.history
  swept := fun T hsince jti hreach => by
    rcases hsince.cases h.history h'.history with huv | hvx
    · exact (h.swept T huv jti hreach).mono h'.rows
    · exact h'.swept T hvx jti (reaches_mono h.rows hreach)
  exchanged := fun parent jti gate hsince => by
    rcases hsince.cases h.history h'.history with huv | hvx
    · exact h.exchanged parent jti gate huv
    · exact (h'.exchanged parent jti gate hvx).imp (fun hp => hp.before h.released) id
  rows := h.rows.trans Issuance.Later.trans h'.rows
  added := fun row hrow => by
    rcases h'.added row hrow with ⟨row₁, hrow₁, hlater₁⟩ | ⟨hpending, hown⟩
    · rcases h.added row₁ hrow₁ with ⟨row₀, hrow₀, hlater₀⟩ | hnew
      · exact .inl ⟨row₀, hrow₀, hlater₀.trans hlater₁⟩
      · rw [hlater₁.jti_eq]
        exact .inr hnew
    · exact .inr ⟨hpending.before h.released, hown⟩
  released := fun jti hout => h'.released jti (h.released jti hout)
  kept := fun jti hown hout => h.kept jti hown (h'.kept jti hown hout)
  grants := by
    obtain ⟨f, hf, hv⟩ := h.grants
    obtain ⟨f', hf', hx⟩ := h'.grants
    exact ⟨f' ∘ f, fun g => (hf g).trans (hf' (f g)), by rw [hx, hv, List.map_map]⟩

/-! ### Looking back -/

/-- Identifiers that no new row can have. -/
def Known (env : Env) (w : World) (own : String → Prop) (u : World) (jti : String) : Prop :=
  Pending env w u jti → own jti

theorem known_of_out (h : Out u jti) : Known env w own u jti := fun hp => absurd h hp.2

theorem Moves.row_before (h : Moves env w own u v) (hrow : row ∈ v.issuances)
    (hknown : Known env w own u row.jti) : ∃ row₀ ∈ u.issuances, Issuance.Later row₀ row := by
  rcases h.added row hrow with hold | ⟨hp, hown⟩
  · exact hold
  · exact absurd (hknown hp) hown

theorem Inv.known_parent (hu : Inv env w u) (hrow : row ∈ u.issuances) :
    Known env w own u row.parentJTI :=
  fun hp => absurd hp (hu.parents row hrow)

/-- What the lineage holds of known identifiers, it held before. -/
theorem Moves.reaches_before (hu : Inv env w u) (h : Moves env w own u v)
    (hreach : T.Reaches v.issuances jti) (hknown : Known env w own u jti) :
      T.Reaches u.issuances jti := by
  revert hknown
  refine reaches_induction (P := fun jti => Known env w own u jti → T.Reaches u.issuances jti)
    (fun row hrow hroot hknown => ?_) (fun row hrow hmint hne _ ih hknown => ?_) hreach
  · obtain ⟨row₀, hrow₀, hlater⟩ := h.row_before hrow hknown
    rw [hlater.jti_eq]
    exact reaches_root hrow₀ ((hlater.isRoot_eq _ _ _).symm.trans hroot)
  · obtain ⟨row₀, hrow₀, hlater⟩ := h.row_before hrow hknown
    rw [hlater.parentJTI_eq] at hne ih
    rw [hlater.jti_eq]
    exact reaches_child hrow₀ (hlater.isMintRow_eq.symm.trans hmint) hne
      (ih (hu.known_parent hrow₀))

theorem Moves.derived_before (hu : Inv env w u) (h : Moves env w own u v) (hd : Derived T v jti)
    (hnot : ¬Since u v T.cascaded) (hknown : Known env w own u jti) : Derived T u jti := by
  induction hd with
  | @root row hrow hroot hcause =>
    obtain ⟨row₀, hrow₀, hlater⟩ := h.row_before hrow hknown
    have hcause' : Seen T u row.jti ∨ Gated T u row.jti := by
      rcases hcause with hseen | ⟨parent, hgated⟩
      · exact .inl (hseen.before h.history hnot)
      · rcases h.history.since hgated with hold | hnew
        · exact .inr ⟨parent, hold⟩
        · obtain ⟨hp, hown⟩ := h.exchanged _ _ _ hnew
          exact absurd (hknown hp) hown
    rw [hlater.jti_eq] at hcause' ⊢
    exact .root hrow₀ ((hlater.isRoot_eq _ _ _).symm.trans hroot) hcause'
  | @child row hrow hmint hne _ ih =>
    obtain ⟨row₀, hrow₀, hlater⟩ := h.row_before hrow hknown
    rw [hlater.parentJTI_eq] at hne ih
    rw [hlater.jti_eq]
    exact .child hrow₀ (hlater.isMintRow_eq.symm.trans hmint) hne (ih (hu.known_parent hrow₀))

/-- **The invariant moves along**, for tokens that were out. -/
theorem Moves.settled (hu : Inv env w u) (h : Moves env w own u v)
    (hcascaded : v.Happened T.cascaded)
    (hd : Derived T v jti) (hout : Out u jti) : Revoked v jti := by
  by_cases hsince : Since u v T.cascaded
  · exact h.swept T hsince jti (h.reaches_before hu hd.reaches (known_of_out hout))
  · have hbefore := (h.history.since hcascaded).resolve_right hsince
    exact (hu.settled T hbefore jti
      (h.derived_before hu hd hsince (known_of_out hout)) hout).mono h.rows

/-! ### Steps -/

/-- The identifiers a request draws. -/
def Own (env : Env) (i : ReqID) (jti : String) : Prop := ∃ n, jti = env.random i n

/-- What the participants of a run that started in `w` may assume and promise. The store does not
fail their calls. -/
def contract (env : Env) (w : World) : Contract ReqID World where
  inv := Inv env w
  rely := fun i u v => Moves env w (Own env i) u v
  guar := fun i u v => ∀ j, j ≠ i → Moves env w (Own env j) u v
  admits := fun _ _ _ => True
  faulty := False
  rely_refl := fun _ u => .refl u
  rely_trans := Moves.trans
  rely_of_guar := fun hij _ h => h _ hij.symm

/-- The event is neither a cascade nor an exchange. -/
def Harmless : Event → Prop
  | .cascaded _ _ _ => False
  | .exchanged _ _ _ => False
  | _ => True

/-- A step that revokes rows and grants at most: no row is added, no token handed out, and nothing
but a harmless event noted. -/
structure Plain (u v : World) : Prop where
  drawn : ∀ j, u.drawn j ≤ v.drawn j
  resources : v.resources = u.resources
  journal : v.journal = u.journal ∨ ∃ ctx e, Harmless e ∧ v.journal = ⟨ctx, e⟩ :: u.journal
  rows : ∃ g : Issuance → Issuance, (∀ i, Issuance.Later i (g i)) ∧ v.issuances = u.issuances.map g
  released : v.released = u.released
  grants : ∃ f, (∀ g, GrantLater g (f g)) ∧ v.consentGrants = u.consentGrants.map f

theorem Plain.history (h : Plain u v) : Extends u v := by
  rcases h.journal with heq | ⟨ctx, e, -, heq⟩
  · exact ⟨[], heq⟩
  · exact .of_cons heq

theorem Plain.harmless (h : Plain u v) (he : Since u v e) : Harmless e := by
  rcases h.journal with heq | ⟨ctx, e', he', heq⟩
  · exact absurd he (not_since_of_eq heq)
  · rwa [he.eq_of_cons heq]

theorem Plain.out_iff (h : Plain u v) : Out v jti ↔ Out u jti := by
  rw [Out, Out, h.released]

theorem Plain.moves (h : Plain u v) : Moves env w own u v where
  drawn := h.drawn
  history := h.history
  swept := fun _ hsince => (h.harmless hsince).elim
  exchanged := fun _ _ _ hsince => (h.harmless hsince).elim
  rows := by
    obtain ⟨g, hg, hrows⟩ := h.rows
    exact fun row hrow => ⟨g row, by rw [hrows]; exact List.mem_map_of_mem hrow, hg row⟩
  added := by
    obtain ⟨g, hg, hrows⟩ := h.rows
    intro row hrow
    rw [hrows] at hrow
    obtain ⟨row₀, hrow₀, rfl⟩ := List.mem_map.mp hrow
    exact .inl ⟨row₀, hrow₀, hg row₀⟩
  released := fun _ => h.out_iff.mpr
  kept := fun _ _ => h.out_iff.mp
  grants := h.grants

theorem dead_of_grants {f : ConsentGrant → ConsentGrant} (hf : ∀ g, GrantLater g (f g))
    (hgrants : v.consentGrants = u.consentGrants.map f)
    (h : ∀ g ∈ u.consentGrants, Consent.ofGrant g = T → g.revokedAt.isSome = true) :
    ∀ g ∈ v.consentGrants, Consent.ofGrant g = T → g.revokedAt.isSome = true := by
  intro g hg hT
  rw [hgrants] at hg
  obtain ⟨g₀, hg₀, rfl⟩ := List.mem_map.mp hg
  exact (hf g₀).revoked (h g₀ hg₀ ((hf g₀).ofGrant_eq.symm.trans hT))

theorem Plain.inv (hu : Inv env w u) (h : Plain u v) : Inv env w v := by
  have hmoves : Moves env w (fun _ => False) u v := h.moves
  obtain ⟨g, hg, hrows⟩ := h.rows
  obtain ⟨f, hf, hgrants⟩ := h.grants
  refine
    { resources := h.resources.trans hu.resources
      drawn := fun j => (hu.drawn j).trans (h.drawn j)
      unique := hu.unique.of_subset_map (fun i => (hg i).key_eq) (hrows ▸ List.Subset.refl _)
      fresh := fun row hrow hundrawn => ?_
      out := fun c hc hundrawn => hu.out c (h.released ▸ hc) (hundrawn.of_le h.drawn)
      parents := fun row hrow hp => ?_
      consents := hu.consents.of_subset_map (fun g => congrArg some (hf g).ofGrant_eq)
        (hgrants ▸ List.Subset.refl _)
      exchanged := fun parent jti gate he => ?_
      gated := fun T hclient jti ⟨parent, he⟩ => ?_
      dead := fun T hT => ?_
      settled := fun T hT jti hd hout => hmoves.settled hu hT hd (h.out_iff.mp hout) }
  · rw [hrows] at hrow
    obtain ⟨row₀, hrow₀, rfl⟩ := List.mem_map.mp hrow
    rw [(hg row₀).jti_eq] at hundrawn
    exact hu.fresh row₀ hrow₀ (hundrawn.of_le h.drawn)
  · rw [hrows] at hrow
    obtain ⟨row₀, hrow₀, rfl⟩ := List.mem_map.mp hrow
    rw [(hg row₀).parentJTI_eq] at hp
    exact hu.parents row₀ hrow₀ (hp.before hmoves.released)
  · rcases h.history.since he with hold | hnew
    · exact h.out_iff.mpr (hu.exchanged parent jti gate hold)
    · exact (h.harmless hnew).elim
  · rcases h.history.since he with hold | hnew
    · exact root_mono (hu.gated T hclient jti ⟨parent, hold⟩) hmoves.rows
    · exact (h.harmless hnew).elim
  · rcases h.history.since hT with hold | hnew
    · exact dead_of_grants hf hgrants (hu.dead T hold)
    · exact (h.harmless hnew).elim

theorem plain_of_quiet (h : u.Quiet v) : Plain u v := by
  obtain ⟨_, _, _, hd, rfl⟩ := h
  exact ⟨hd, rfl, .inl rfl, ⟨id, Issuance.Later.refl, (List.map_id _).symm⟩, rfl,
    ⟨id, GrantLater.refl, (List.map_id _).symm⟩⟩

theorem contract_plain {i : ReqID} (hu : Inv env w u) (h : Plain u v) :
    (contract env w).inv v ∧ (contract env w).guar i u v ∧ (contract env w).rely i u v :=
  ⟨h.inv hu, fun _ _ => h.moves, h.moves⟩

theorem tolerant (env : Env) (w : World) (i : ReqID) : Tolerant (contract env w) i :=
  fun _ _ hu h => contract_plain hu (plain_of_quiet h)

def IsPlain : Write → Prop
  | .insertIssuance _ => False
  | .release _ _ => False
  | .cascade _ _ _ => False
  | .approve _ _ _ _ _ => False
  | .updateResource _ => False
  | .maintain _ => False
  | _ => True

theorem harmless_of_notes {x : Write} (hx : IsPlain x) (he : x.notes e) : Harmless e := by
  cases x with
  | consumeCode _ | openFamily _ _ _ _ _ _ | createRefreshToken _ _ _ | revokeFamiliesOfUser _ =>
    obtain ⟨_, rfl⟩ := he
    trivial
  | consumeRefreshToken _ =>
    obtain ⟨_, _, rfl⟩ := he
    trivial
  | createSession _ _ | revokeFamily _ | denylistFamily _ | listPage _ _ _ | listUser _ =>
    obtain rfl := he
    trivial
  | insertIssuance _ | release _ _ | cascade _ _ _ | approve _ _ _ _ _ | updateResource _
  | maintain _ =>
    exact hx.elim
  | _ => exact he.elim

theorem plain_run (env : Env) {x : Write} (hx : IsPlain x) (ctx : ReqID) (u : World) :
    Plain u (x.run env ctx u) := by
  have hframe := x.frame env ctx u
  have hgrants : ∃ f, (∀ g, GrantLater g (f g)) ∧
      (x.run env ctx u).consentGrants = u.consentGrants.map f := by
    cases x with
    | revokeGrant id =>
      refine ⟨fun g => if g.id == id then { g with revokedAt := some u.clock }
        else g, fun g => ?_, rfl⟩
      simp only
      split
      · exact ⟨rfl, fun _ => rfl⟩
      · exact .refl g
    | insertIssuance _ | release _ _ | cascade _ _ _ | approve _ _ _ _ _ | updateResource _
    | maintain _ =>
      exact hx.elim
    | _ =>
      refine ⟨id, GrantLater.refl, ?_⟩
      rw [List.map_id]
      exact hframe.same .consentGrants (by simp [Write.touches])
  refine
    { drawn := hframe.drawn
      resources := hframe.same .resources
        (by cases x <;> first | exact hx.elim | simp [Write.touches])
      journal := ?_
      rows := ?_
      released := hframe.same .released
        (by cases x <;> first | exact hx.elim | simp [Write.touches])
      grants := hgrants }
  · rcases hframe.journal with heq | ⟨e, he, heq⟩
    · exact .inl heq
    · exact .inr ⟨ctx, e, harmless_of_notes hx he, heq⟩
  · rcases issuances_run env ctx x u (by rintro _ rfl; exact hx) with hmap | ⟨row, rfl, -, -⟩
    · exact hmap
    · exact hx.elim

variable {i : ReqID}

theorem not_own_of_ne {j : ReqID} (hown : Own env i jti) (hij : j ≠ i) : ¬Own env j jti := by
  obtain ⟨n, rfl⟩ := hown
  rintro ⟨m, heq⟩
  exact hij (env.random_injective heq).1.symm

/-- **Minting.** A request writes the row of a token that it has drawn and not handed out, from a
token that is out. -/
theorem contract_insert (hu : Inv env w u) (hown : Own env i row.jti)
    (hpending : Pending env w u row.jti) (hdrawn : ¬Undrawn env u row.jti)
    (hparent : ¬Pending env w u row.parentJTI) (hne : row.jti ≠ "") :
    (contract env w).inv (IssuanceStore.insert i row u).2 ∧
      (contract env w).guar i u (IssuanceStore.insert i row u).2 := by
  rcases IssuanceStore.insert_cases i row u with ⟨e, hrun⟩ | ⟨hnew, hrun⟩
  · rw [hrun]
    exact ⟨hu, fun _ _ => .refl u⟩
  · rw [hrun]
    set v := { u with issuances := u.issuances ++ [row] }.note i (.issued row.jti) with hv
    have hjournal : v.journal = ⟨i, .issued row.jti⟩ :: u.journal := rfl
    have hsince : ∀ e, Since u v e → e = .issued row.jti := fun e he => he.eq_of_cons hjournal
    have hmoves : ∀ own : String → Prop, ¬own row.jti → Moves env w own u v := by
      intro own hnot
      refine
        { drawn := fun _ => le_rfl
          history := .of_cons hjournal
          swept := fun T hT => by cases hsince _ hT
          exchanged := fun _ _ _ h => by cases hsince _ h
          rows := grows_append Issuance.Later.refl _ _
          added := fun row' hrow' => ?_
          released := fun _ h => h
          kept := fun _ _ h => h
          grants := ⟨id, GrantLater.refl, (List.map_id _).symm⟩ }
      rcases List.mem_append.mp hrow' with hold | hrow
      · exact .inl ⟨row', hold, .refl row'⟩
      · rw [List.mem_singleton.mp hrow]
        exact .inr ⟨hpending, hnot⟩
    refine ⟨?_, fun j hij => hmoves _ (not_own_of_ne hown hij)⟩
    refine
      { resources := hu.resources
        drawn := hu.drawn
        unique := hu.unique.append_singleton fun k hk r hr hkey => ?_
        fresh := fun row' hrow' => ?_
        out := hu.out
        parents := fun row' hrow' => ?_
        consents := hu.consents
        exchanged := fun parent jti gate he => ?_
        gated := fun T hclient jti ⟨parent, he⟩ => ?_
        dead := fun T hT => ?_
        settled := fun T hT jti hd hout => (hmoves (fun _ => False) id).settled hu hT hd hout }
    · obtain ⟨hjti, -⟩ := Issuance.key_eq_some.mp hk
      exact (hnew r hr).2 hne ((Issuance.key_eq_some.mp hkey).1.trans hjti.symm)
    · rcases List.mem_append.mp hrow' with hold | hrow
      · exact hu.fresh row' hold
      · rw [List.mem_singleton.mp hrow]
        exact hdrawn
    · rcases List.mem_append.mp hrow' with hold | hrow
      · exact hu.parents row' hold
      · rw [List.mem_singleton.mp hrow]
        exact hparent
    · rcases (Extends.of_cons hjournal).since he with hold | hnew'
      · exact hu.exchanged parent jti gate hold
      · cases hsince _ hnew'
    · rcases (Extends.of_cons hjournal).since he with hold | hnew'
      · exact root_mono (hu.gated T hclient jti ⟨parent, hold⟩) (hmoves (fun _ => False) id).rows
      · cases hsince _ hnew'
    · rcases (Extends.of_cons hjournal).since hT with hold | hnew'
      · exact hu.dead T hold
      · cases hsince _ hnew'

def cascade (i : ReqID) (T : Consent) (u : World) : World :=
  (IssuanceStore.revokeFamily i T.userID T.clientID T.resourceID u).2

theorem cascaded_injective {T T' : Consent} (h : T.cascaded = T'.cascaded) : T = T' := by
  cases T
  cases T'
  simpa [Consent.cascaded] using h

/-- The cascade leaves nothing in its lineage unrevoked. -/
theorem revoked_cascade (h : T.Reaches u.issuances jti) : Revoked (cascade i T u) jti := by
  obtain ⟨row, hrow, rfl, hmint⟩ := exists_row_of_reaches h
  refine ⟨_, mem_updateWhere.mpr ⟨row, hrow, rfl⟩, ?_, ?_⟩
  · split <;> rfl
  · split
    · rfl
    · rename_i hmiss
      simp only [IssuanceStore.isMintRow, Bool.and_eq_true] at hmint
      have hin : (IssuanceStore.lineage T.userID T.clientID
        T.resourceID u.issuances).contains row.jti =
          true := List.contains_iff_mem.mpr h
      simp only [hin, hmint.1, Bool.true_and, Bool.not_eq_true, Option.isNone_eq_false_iff] at hmiss
      exact hmiss

/-- **The cascade.** It may run once no grant for the consent is live. -/
theorem contract_cascade (hu : Inv env w u)
    (hdead : ∀ g ∈ u.consentGrants, Consent.ofGrant g = T → g.revokedAt.isSome = true) :
    (contract env w).inv (cascade i T u) ∧ (contract env w).guar i u (cascade i T u) := by
  set v := cascade i T u with hv
  have hjournal : v.journal = ⟨i, T.cascaded⟩ :: u.journal := rfl
  have hsince : ∀ e, Since u v e → e = T.cascaded := fun e he => he.eq_of_cons hjournal
  obtain ⟨g, hg, hrows⟩ : ∃ g : Issuance → Issuance,
      (∀ r, Issuance.Later r (g r)) ∧ v.issuances = u.issuances.map g :=
    exists_map_updateWhere .refl (·.later_revoke u.clock)
  have hmoves : ∀ own : String → Prop, Moves env w own u v := by
    intro own
    refine
      { drawn := fun _ => le_rfl
        history := .of_cons hjournal
        swept := fun T' hT jti hreach => ?_
        exchanged := fun _ _ _ h => by cases hsince _ h
        rows := fun row hrow => ⟨g row, by rw [hrows]; exact List.mem_map_of_mem hrow, hg row⟩
        added := fun row hrow => ?_
        released := fun _ h => h
        kept := fun _ _ h => h
        grants := ⟨id, GrantLater.refl, (List.map_id _).symm⟩ }
    · obtain rfl := cascaded_injective (hsince _ hT)
      exact revoked_cascade hreach
    · rw [hrows] at hrow
      obtain ⟨row₀, hrow₀, rfl⟩ := List.mem_map.mp hrow
      exact .inl ⟨row₀, hrow₀, hg row₀⟩
  refine ⟨?_, fun j _ => hmoves _⟩
  refine
    { resources := hu.resources
      drawn := hu.drawn
      unique := hu.unique.of_subset_map (fun i => (hg i).key_eq) (hrows ▸ List.Subset.refl _)
      fresh := fun row hrow => ?_
      out := hu.out
      parents := fun row hrow => ?_
      consents := hu.consents
      exchanged := fun parent jti gate he => ?_
      gated := fun T' hclient jti ⟨parent, he⟩ => ?_
      dead := fun T' hT => ?_
      settled := fun T' hT jti hd hout => (hmoves fun _ => False).settled hu hT hd hout }
  · rw [hrows] at hrow
    obtain ⟨row₀, hrow₀, rfl⟩ := List.mem_map.mp hrow
    rw [(hg row₀).jti_eq]
    exact hu.fresh row₀ hrow₀
  · rw [hrows] at hrow
    obtain ⟨row₀, hrow₀, rfl⟩ := List.mem_map.mp hrow
    rw [(hg row₀).parentJTI_eq]
    exact hu.parents row₀ hrow₀
  · rcases (Extends.of_cons hjournal).since he with hold | hnew
    · exact hu.exchanged parent jti gate hold
    · cases hsince _ hnew
  · rcases (Extends.of_cons hjournal).since he with hold | hnew
    · exact root_mono (hu.gated T' hclient jti ⟨parent, hold⟩) (hmoves fun _ => False).rows
    · cases hsince _ hnew
  · rcases (Extends.of_cons hjournal).since hT with hold | hnew
    · exact hu.dead T' hold
    · obtain rfl := cascaded_injective (hsince _ hnew)
      exact hdead

def handOut (i : ReqID) (c : AccessTokenClaims) (e : Event) (u : World) : World :=
  { u with released := c :: u.released }.note i e

variable {c : AccessTokenClaims}

theorem out_handOut : Out (handOut i c e u) jti ↔ jti = c.jti ∨ Out u jti := by
  constructor
  · rintro ⟨c', hc', rfl⟩
    rcases List.mem_cons.mp hc' with rfl | hold
    · exact .inl rfl
    · exact .inr ⟨c', hold, rfl⟩
  · rintro (rfl | ⟨c', hc', rfl⟩)
    · exact ⟨c, List.mem_cons_self, rfl⟩
    · exact ⟨c', List.mem_cons_of_mem c hc', rfl⟩

theorem since_handOut {e' : Event} (h : Since u (handOut i c e u) e') : e' = e :=
  h.eq_of_cons rfl

/-- The event that is noted with a token: an exchange that produced it, or another way to a
token. -/
def Announces (e : Event) (jti : String) : Prop :=
  Harmless e ∨ ∃ parent gate, e = .exchanged parent jti gate

theorem Announces.ne_cascaded (h : Announces e jti) (T : Consent) : e ≠ T.cascaded := by
  rintro rfl
  rcases h with h | ⟨_, _, h⟩
  · exact h
  · cases h

theorem Announces.jti_eq {jti' parent : String} {gate : Gate} (h : Announces e jti)
    (he : e = .exchanged parent jti' gate) : jti' = jti := by
  subst he
  rcases h with h | ⟨_, _, h⟩
  · exact h.elim
  · cases h
    rfl

theorem moves_handOut (hpending : Pending env w u c.jti) (hnot : ¬own c.jti)
    (he : Announces e c.jti) : Moves env w own u (handOut i c e u) where
  drawn := fun _ => le_rfl
  history := .of_cons rfl
  swept := fun T hT => absurd (since_handOut hT).symm (he.ne_cascaded T)
  exchanged := fun parent jti gate h => by
    rw [he.jti_eq (since_handOut h).symm]
    exact ⟨hpending, hnot⟩
  rows := .refl Issuance.Later.refl _
  added := fun row hrow => .inl ⟨row, hrow, .refl row⟩
  released := fun jti h => out_handOut.mpr (.inr h)
  kept := fun jti hmine h => by
    rcases out_handOut.mp h with rfl | hold
    · exact absurd hmine hnot
    · exact hold
  grants := ⟨id, GrantLater.refl, (List.map_id _).symm⟩

/-- **Handing a token out.** What is left to show is that the token is revoked if a cascade has been
over the consent it is derived from. -/
theorem contract_release (hu : Inv env w u) (hown : Own env i c.jti)
    (hpending : Pending env w u c.jti) (hdrawn : ¬Undrawn env u c.jti) (he : Announces e c.jti)
    (hroot : ∀ T : Consent, T.clientID ≠ "" → ∀ parent jti, e = .exchanged parent jti T.gate →
      ∃ row ∈ u.issuances, row.jti = c.jti ∧ T.isRoot row = true)
    (hsettled : ∀ T : Consent, u.Happened T.cascaded → Derived T (handOut i c e u) c.jti →
      Revoked u c.jti) :
    (contract env w).inv (handOut i c e u) ∧ (contract env w).guar i u (handOut i c e u) := by
  have hhistory : Extends u (handOut i c e u) := .of_cons rfl
  refine ⟨?_, fun j hij => moves_handOut hpending (not_own_of_ne hown hij) he⟩
  refine
    { resources := hu.resources
      drawn := hu.drawn
      unique := hu.unique
      fresh := hu.fresh
      out := fun c' hc' => ?_
      parents := fun row hrow hp =>
        hu.parents row hrow (hp.before fun _ h => out_handOut.mpr (.inr h))
      consents := hu.consents
      exchanged := fun parent jti gate he' => ?_
      gated := fun T hclient jti ⟨parent, he'⟩ => ?_
      dead := fun T hT => ?_
      settled := fun T hT jti hd hjti => ?_ }
  · rcases List.mem_cons.mp hc' with rfl | hold
    · exact hdrawn
    · exact hu.out c' hold
  · rcases hhistory.since he' with hold | hnew
    · exact out_handOut.mpr (.inr (hu.exchanged parent jti gate hold))
    · exact out_handOut.mpr (.inl (he.jti_eq (since_handOut hnew).symm))
  · rcases hhistory.since he' with hold | hnew
    · exact hu.gated T hclient jti ⟨parent, hold⟩
    · rw [he.jti_eq (since_handOut hnew).symm]
      exact hroot T hclient parent jti (since_handOut hnew).symm
  · rcases hhistory.since hT with hold | hnew
    · exact hu.dead T hold
    · exact absurd (since_handOut hnew).symm (he.ne_cascaded T)
  · rcases out_handOut.mp hjti with rfl | hold
    · rcases hhistory.since hT with hbefore | hnew
      · exact hsettled T hbefore hd
      · exact absurd (since_handOut hnew).symm (he.ne_cascaded T)
    · have hmoves : Moves env w (fun _ => False) u (handOut i c e u) := moves_handOut hpending id he
      exact hmoves.settled hu hT hd hold

/-! ### A token between its mint and its release -/

/-- The identifier is the request's own, drawn in this run, and no token with it is out. -/
structure Mine (env : Env) (w : World) (i : ReqID) (jti : String) (t : World) : Prop where
  own : Own env i jti
  pending : Pending env w t jti
  drawn : ¬Undrawn env t jti

variable {t : World}

theorem mine_of_drawn (h : Drawn (contract env w) i env jti t) : Mine env w i jti t := by
  obtain ⟨u, hu, rfl, hut⟩ := h
  have hnext := undrawn_next env u i
  have hown : Own env i (env.random i (u.drawn i)) := ⟨_, rfl⟩
  refine ⟨hown, ⟨hnext.of_le hu.drawn, fun hout => ?_⟩, ?_⟩
  · obtain ⟨c, hc, hjti⟩ := hut.kept _ hown hout
    exact hu.out c hc (hjti ▸ hnext)
  · refine not_undrawn_of_lt (Nat.lt_of_lt_of_le ?_ (hut.drawn i))
    simp [World.draw]

theorem no_row_of_drawn (h : Drawn (contract env w) i env jti t) : ∀ row ∈ t.issuances,
    row.jti ≠ jti := by
  obtain ⟨u, hu, rfl, hut⟩ := h
  intro row hrow hjti
  obtain ⟨row₀, hrow₀, hlater⟩ := hut.row_before hrow fun _ => ⟨_, hjti⟩
  exact hu.fresh row₀ hrow₀ (hlater.jti_eq.symm.trans hjti ▸ undrawn_next env u i)

theorem Mine.rely {t' : World} (h : Mine env w i jti t) (ht : Moves env w (Own env i) t t') :
    Mine env w i jti t' :=
  ⟨h.own, ⟨h.pending.1, fun hout => h.pending.2 (ht.kept jti h.own hout)⟩,
    fun hundrawn => h.drawn (hundrawn.of_le ht.drawn)⟩

def written (i : ReqID) (row : Issuance) (u : World) : World :=
  { u with issuances := u.issuances ++ [row] }.note i (.issued row.jti)

theorem written_of_ok (h : (IssuanceStore.insert i row u).1 = .ok ()) :
    (IssuanceStore.insert i row u).2 = written i row u := by
  rcases IssuanceStore.insert_cases i row u with ⟨e, herr⟩ | ⟨-, hrun⟩
  · rw [herr] at h
    cases h
  · rw [hrun]
    rfl

theorem not_seen_written : ¬Seen T (written i row u) row.jti := by
  rintro ⟨later, earlier, ctx, hjournal, hlater⟩
  cases later with
  | nil =>
    have hhead := (List.cons.inj hjournal).1
    cases (Entry.mk.inj hhead).2
  | cons e rest =>
    obtain ⟨rfl, -⟩ := List.cons.inj hjournal
    exact hlater i List.mem_cons_self

/-- **At the release.** The token's row was written in a world since which the others have moved on.
If a cascade came since, it has seen the row; if it came before, neither the parent nor the gate
lets the token be derived from the consent. -/
theorem revoked_at_release (hu : Inv env w (written i row u)) (ht : Inv env w t)
    (hmoves : Moves env w (Own env i) (written i row u) t)
    (hmine : Mine env w i row.jti (written i row u)) (hne : row.jti ≠ "") (hcjti : c.jti = row.jti)
    (hparentOut : row.parentJTI ≠ "" → Out t row.parentJTI) (he : Announces e c.jti)
    (hparent : ∀ T : Consent, row.parentJTI ≠ "" → (written i row u).Happened T.cascaded →
      ¬Since (written i row u) t T.cascaded → ¬Derived T t row.parentJTI)
    (hgate : ∀ T : Consent, (written i row u).Happened T.cascaded → ∀ parent jti,
      e ≠ .exchanged parent jti T.gate)
    (hT : t.Happened T.cascaded) (hd : Derived T (handOut i c e t) c.jti) : Revoked t c.jti := by
  have hmineT := hmine.rely hmoves
  rw [hcjti] at hd ⊢
  by_cases hsince : Since (written i row u) t T.cascaded
  · exact hmoves.swept T hsince _ (hmoves.reaches_before hu hd.reaches fun _ => hmine.own)
  · have hbefore := (hmoves.history.since hT).resolve_right hsince
    -- the row with this identifier is the one that was written
    have hrow : ∀ row' ∈ t.issuances, row'.jti = row.jti → Issuance.Later row row' := by
      intro row' hrow' hjti
      obtain ⟨row₀, hrow₀, hlater⟩ := hmoves.row_before hrow' (fun _ => hjti ▸ hmine.own)
      have hkey : row₀.jti = row.jti := hlater.jti_eq.symm.trans hjti
      obtain rfl : row = row₀ :=
        hu.unique row (List.mem_append_right _ List.mem_cons_self) row₀ hrow₀
        row.jti (Issuance.key_eq_some.mpr ⟨rfl, hne⟩) (Issuance.key_eq_some.mpr ⟨hkey, hne⟩)
      exact hlater
    have hhistory : Extends t (handOut i c e t) := .of_cons rfl
    generalize hjti : row.jti = jti at hd
    cases hd with
    | @root row' hrow' hroot hcause =>
      exfalso
      rcases hcause with hseen | ⟨parent, hgated⟩
      · have hseen' := hseen.before hhistory fun h =>
          he.ne_cascaded T (since_handOut h).symm
        exact not_seen_written (hjti ▸ hseen'.before hmoves.history hsince)
      · rcases hhistory.since hgated with hold | hnew
        · exact hmineT.pending.2 (hjti ▸ ht.exchanged _ _ _ hold)
        · exact hgate T hbefore _ _ (since_handOut hnew).symm
    | @child row' hrow' hmint hne' hparent' =>
      exfalso
      have hlater := hrow row' hrow' hjti.symm
      rw [hlater.parentJTI_eq] at hne' hparent'
      refine hparent T hne' hbefore hsince ?_
      have hstep : Moves env w (fun _ => False) t (handOut i c e t) :=
        moves_handOut (hcjti ▸ hmineT.pending) id he
      exact hstep.derived_before ht hparent' (fun h => he.ne_cascaded T (since_handOut h).symm)
        (known_of_out (hparentOut hne'))

end ConsentCascade

end AuthServer
