import Mathlib.Data.List.Nodup
import Mathlib.Data.List.Pairwise

/-!
# Tables that only grow

A table is a list of rows. Statements add rows and rewrite rows in place; `Table.Grows` says that
nothing is lost on the way: every row is still there, moved along a relation `R` on rows that says
what rewriting may do to one. Where rows have a key that rewriting keeps and that is unique,
`Grows.of_key` turns this into a statement about *the* row with a given key.

## Main definitions

* `Table.updateWhere`: rewrite the rows that satisfy a condition.
* `Table.Grows`: no row is lost, and each has moved along the given relation.
* `Table.UniqueKey`: no two rows have the same key, where they have one.
* `Table.Lasts`: no row is lost but those that were free to go.
-/

namespace Table

variable {ρ κ : Type} {R : ρ → ρ → Prop} {t t' t'' : List ρ}

/-- Rewrite every row that satisfies the condition. -/
def updateWhere (p : ρ → Bool) (f : ρ → ρ) (t : List ρ) : List ρ :=
  t.map fun r => if p r then f r else r

variable {f : ρ → ρ} {p : ρ → Bool}

theorem mem_updateWhere {r' : ρ} :
    r' ∈ updateWhere p f t ↔ ∃ r ∈ t, r' = if p r then f r else r := by
  simp only [updateWhere, List.mem_map, eq_comm]

/-- A row that does not satisfy the condition stays. -/
theorem mem_updateWhere_of_eq_false {r : ρ} (hr : r ∈ t)
    (hp : p r = false) : r ∈ updateWhere p f t :=
  mem_updateWhere.mpr ⟨r, hr, by simp [hp]⟩

/-! ### Looking a row up -/

/-- The first row that satisfies the condition, or the error if there is none. -/
def lookup {ε : Type} (p : ρ → Bool) (e : ε) (t : List ρ) : Except ε ρ :=
  match t.find? p with
  | some r => .ok r
  | none => .error e

theorem lookup_eq_ok {ε : Type} {e : ε} {r : ρ} : lookup p e t = .ok r ↔ t.find? p = some r := by
  cases h : t.find? p <;> simp [lookup, h]

theorem lookup_eq_error {ε : Type} {e : ε} : lookup p e t = .error e ↔ t.find? p = none := by
  cases h : t.find? p <;> simp [lookup, h]

theorem mem_of_lookup {ε : Type} {e : ε} {r : ρ} (h : lookup p e t = .ok r) :
    r ∈ t ∧ p r = true :=
  have hfind := lookup_eq_ok.mp h
  ⟨List.mem_of_find?_eq_some hfind, List.find?_some hfind⟩

/-- Rewriting that keeps what is looked for finds the same row, rewritten. -/
theorem find?_updateWhere {q p : ρ → Bool} (hq : ∀ r, q (f r) = q r) :
    (updateWhere p f t).find? q = (t.find? q).map fun r => if p r then f r else r := by
  have hcomp : (q ∘ fun r => if p r then f r else r) = q := by
    funext r
    simp only [Function.comp]
    split
    · exact hq r
    · rfl
  rw [updateWhere, List.find?_map, hcomp]

/-- A selection that does not look at what is rewritten. -/
theorem map_filter_updateWhere {β : Type*} {q p : ρ → Bool} {g : ρ → β} (hq : ∀ r, q (f r) = q r)
    (hg : ∀ r, g (f r) = g r) : ((updateWhere p f t).filter q).map g = (t.filter q).map g := by
  have hcomp : (q ∘ fun r => if p r then f r else r) = q := by
    funext r
    by_cases hp : p r <;> simp [hp, hq]
  have hmap : (g ∘ fun r => if p r then f r else r) = g := by
    funext r
    by_cases hp : p r <;> simp [hp, hg]
  rw [updateWhere, List.filter_map, List.map_map, hcomp, hmap]

variable {r r' : ρ}

/-- The row that a search finds is overwritten by one that the search is still for. -/
theorem find?_updateWhere_const {q p : ρ → Bool} (h : t.find? q = some r) (hp : p r = true)
    (hq : q r' = true) : (updateWhere p (fun _ => r') t).find? q = some r' := by
  induction t with
  | nil => cases h
  | cons a rest ih =>
    rw [updateWhere, List.map_cons, List.find?_cons]
    rw [List.find?_cons] at h
    cases hqa : q a with
    | true =>
      rw [hqa] at h
      obtain rfl := Option.some.inj h
      simp [hp, hq]
    | false =>
      rw [hqa] at h
      cases hpa : p a with
      | true => simp [hq]
      | false =>
        rw [if_neg Bool.false_ne_true, hqa]
        exact ih h

variable {q keep : ρ → Bool}

/-- Deleting other rows does not hide the row that was found. -/
theorem find?_filter_of_kept (h : t.find? q = some r)
    (hkeep : keep r = true) : (t.filter keep).find? q = some r := by
  rw [List.find?_filter]
  obtain ⟨hq, before, after, rfl, hbefore⟩ := List.find?_eq_some_iff_append.mp h
  refine List.find?_eq_some_iff_append.mpr ⟨by simp [hq, hkeep], before, after, rfl, fun a ha => ?_⟩
  have := hbefore a ha
  simp_all

theorem find?_filter_eq_none (h : t.find? q = none) : (t.filter keep).find? q = none := by
  simp only [List.find?_eq_none, List.mem_filter] at h ⊢
  exact fun a ha => h a ha.1

/-! ### Growth -/

/-- Every row of the first table is still in the second, moved along `R`. -/
def Grows (R : ρ → ρ → Prop) (t t' : List ρ) : Prop :=
  ∀ r ∈ t, ∃ r' ∈ t', R r r'

theorem Grows.refl (hR : ∀ r, R r r) (t : List ρ) : Grows R t t :=
  fun r hr => ⟨r, hr, hR r⟩

theorem Grows.trans (hR : ∀ {a b c}, R a b → R b c → R a c) (h : Grows R t t')
    (h' : Grows R t' t'') : Grows R t t'' := by
  intro r hr
  obtain ⟨r', hr', hrr'⟩ := h r hr
  obtain ⟨r'', hr'', hrr''⟩ := h' r' hr'
  exact ⟨r'', hr'', hR hrr' hrr''⟩

theorem grows_append (hR : ∀ r, R r r) (t new : List ρ) : Grows R t (t ++ new) :=
  fun r hr => ⟨r, List.mem_append_left new hr, hR r⟩

theorem exists_map_updateWhere (hR : ∀ r, R r r) (hf : ∀ r, R r (f r)) :
    ∃ g : ρ → ρ, (∀ r, R r (g r)) ∧ updateWhere p f t = t.map g := by
  refine ⟨fun r => if p r then f r else r, fun r => ?_, rfl⟩
  dsimp only
  split
  · exact hf r
  · exact hR r

/-! ### Keys -/

/-- Two rows that have the same key are the same row. -/
def UniqueKey (key : ρ → Option κ) (t : List ρ) : Prop :=
  ∀ r ∈ t, ∀ r' ∈ t, ∀ k, key r = some k → key r' = some k → r = r'

variable {key : ρ → Option κ}

theorem UniqueKey.of_nodup (h : (t.filterMap key).Nodup) : UniqueKey key t := by
  intro r hr r' hr' k hk hk'
  by_contra hne
  have hpair := List.pairwise_filterMap.mp h
  have : Std.Symm fun a a' => ∀ b, key a = some b → ∀ b', key a' = some b' → b ≠ b' :=
    ⟨fun _ _ hab b hb b' hb' heq => hab b' hb' b hb heq.symm⟩
  exact hpair.forall hr hr' hne k hk k hk' rfl

theorem UniqueKey.updateWhere
    (h : UniqueKey key t) (hf : ∀ r, key (f r) = key r) : UniqueKey key (updateWhere p f t) := by
  have hkey : ∀ r, key (if p r then f r else r) = key r := by
    intro r
    by_cases hp : p r = true <;> simp [hp, hf]
  intro a ha b hb k hak hbk
  obtain ⟨r, hr, rfl⟩ := mem_updateWhere.mp ha
  obtain ⟨r', hr', rfl⟩ := mem_updateWhere.mp hb
  rw [hkey] at hak hbk
  rw [h r hr r' hr' k hak hbk]

theorem UniqueKey.append_singleton {a : ρ} (h : UniqueKey key t)
    (ha : ∀ k, key a = some k → ∀ r ∈ t, key r ≠ some k) : UniqueKey key (t ++ [a]) := by
  intro r hr r' hr' k hk hk'
  rcases List.mem_append.mp hr with hold | hnew <;> rcases List.mem_append.mp hr' with hold' | hnew'
  · exact h r hold r' hold' k hk hk'
  · rw [List.mem_singleton.mp hnew'] at hk'
    exact (ha k hk' r hold hk).elim
  · rw [List.mem_singleton.mp hnew] at hk
    exact (ha k hk r' hold' hk').elim
  · rw [List.mem_singleton.mp hnew, List.mem_singleton.mp hnew']

theorem UniqueKey.filter (h : UniqueKey key t) (p : ρ → Bool) : UniqueKey key (t.filter p) :=
  fun r hr r' hr' => h r (List.mem_of_mem_filter hr) r' (List.mem_of_mem_filter hr')

/-- Rewriting rows without touching the key, and dropping some, keeps keys unique. -/
theorem UniqueKey.of_subset_map {g : ρ → ρ} (h : UniqueKey key t)
    (hg : ∀ r, key (g r) = key r) (hsub : t' ⊆ t.map g) : UniqueKey key t' := by
  intro a ha b hb k hka hkb
  obtain ⟨r, hr, rfl⟩ := List.mem_map.mp (hsub ha)
  obtain ⟨r', hr', rfl⟩ := List.mem_map.mp (hsub hb)
  rw [hg] at hka hkb
  rw [h r hr r' hr' k hka hkb]

/-- The row with a key in the later table has moved along `R` from the row with that key in the
earlier one. -/
theorem Grows.of_key (h : Grows R t t') (hu : UniqueKey key t')
    (hkey : ∀ {a b}, R a b → key b = key a) (hr : r ∈ t) (hr' : r' ∈ t') {k : κ}
    (hk : key r = some k) (hk' : key r' = some k) : R r r' := by
  obtain ⟨b, hb, hrb⟩ := h r hr
  rwa [hu r' hr' b hb k hk' ((hkey hrb).trans hk)]

/-! ### Tables that are purged -/

/-- Every row of the first table is still in the second, moved along `R`, or was free to go. -/
def Lasts (R : ρ → ρ → Prop) (gone : ρ → Prop) (t t' : List ρ) : Prop :=
  ∀ r ∈ t, (∃ r' ∈ t', R r r') ∨ gone r

variable {gone gone' : ρ → Prop}

theorem Grows.lasts (h : Grows R t t') : Lasts R gone t t' :=
  fun r hr => .inl (h r hr)

theorem Lasts.refl (hR : ∀ r, R r r) (t : List ρ) : Lasts R gone t t :=
  (Grows.refl hR t).lasts

theorem Lasts.mono (h : Lasts R gone t t') (hgone : ∀ r, gone r → gone' r) : Lasts R gone' t t' :=
  fun r hr => (h r hr).imp id (hgone r)

theorem Lasts.trans (hR : ∀ {a b c}, R a b → R b c → R a c)
    (hback : ∀ {a b}, R a b → gone' b → gone' a) (hgone : ∀ r, gone r → gone' r)
    (h : Lasts R gone t t') (h' : Lasts R gone' t' t'') : Lasts R gone' t t'' := by
  intro r hr
  rcases h r hr with ⟨a, ha, hra⟩ | hgo
  · rcases h' a ha with ⟨b, hb, hab⟩ | hgo
    · exact .inl ⟨b, hb, hR hra hab⟩
    · exact .inr (hback hra hgo)
  · exact .inr (hgone r hgo)

end Table
