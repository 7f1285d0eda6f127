import Mathlib.Data.List.Basic

/-!
# JSON objects

What a decoder makes of a JSON document: strings, objects, and everything else, which is kept as its
text. An object is a finite map from names to values, written as its entries; `set` replaces the
entry of a name or adds one at the end, so no operation here produces a second entry of the same
name.

`along` follows one name from object to object: the object itself, the object under that name in it,
and so on inward, until the name is absent or holds something that is not an object.
-/

namespace Json

mutual

/-- A JSON value. -/
inductive Value
  | str (s : String)
  /-- A number, a boolean, `null` or an array, as its text. -/
  | other (text : String)
  | obj (m : Object)
  deriving DecidableEq, Repr

/-- A JSON object. -/
inductive Object
  | empty
  | entry (key : String) (val : Value) (rest : Object)
  deriving DecidableEq, Repr

end

namespace Object

def get (k : String) : Object → Option Value
  | empty => none
  | entry k' v rest => if k' = k then some v else rest.get k

/-- The object with the value of a name replaced or added. -/
def set (k : String) (v : Value) : Object → Object
  | empty => entry k v empty
  | entry k' v' rest => if k' = k then entry k v rest else entry k' v' (rest.set k v)

/-- The object without a name. -/
def erase (k : String) : Object → Object
  | empty => empty
  | entry k' v rest => if k' = k then rest.erase k else entry k' v (rest.erase k)

/-- The value of a name, where it is a string; empty otherwise. -/
def text (k : String) (m : Object) : String :=
  match m.get k with
  | some (.str s) => s
  | _ => ""

/-- The value of a name, where it is an object. -/
def object (k : String) (m : Object) : Option Object :=
  match m.get k with
  | some (.obj inner) => some inner
  | _ => none

/-! ### Following a name inward -/

mutual

/-- The objects met when following a name from a value. -/
def alongValue (k : String) : Value → List Object
  | .obj m => m :: m.alongInner k
  | .str _ => []
  | .other _ => []

/-- The objects met when following a name from inside an object. -/
def alongInner (k : String) : Object → List Object
  | .empty => []
  | .entry k' v rest => if k' = k then alongValue k v else alongInner k rest

end

/-- The objects met when following a name inward, the object itself first. -/
def along (k : String) (m : Object) : List Object :=
  m :: m.alongInner k

theorem alongInner_eq (k : String) : ∀ m : Object,
    m.alongInner k = (m.object k).elim [] (along k)
  | .empty => rfl
  | .entry k' v rest => by
    by_cases h : k' = k
    · cases v <;> simp [alongInner, alongValue, object, get, along, h]
    · simpa [alongInner, object, get, h] using alongInner_eq k rest

/-- One step inward. -/
theorem along_eq (k : String) (m : Object) : m.along k = m :: (m.object k).elim [] (along k) := by
  rw [along, alongInner_eq]

/-! ### Reading what was written -/

@[simp] theorem get_set_self (k : String) (v : Value) : ∀ m : Object, (m.set k v).get k = some v
  | .empty => by simp [set, get]
  | .entry k' v' rest => by
    by_cases h : k' = k
    · simp [set, get, h]
    · simpa [set, get, h] using get_set_self k v rest

theorem get_set_of_ne {k k' : String} (h : k ≠ k') (v : Value) : ∀ m : Object,
    (m.set k v).get k' = m.get k'
  | .empty => by simp [set, get, h]
  | .entry k₀ v₀ rest => by
    have ih := get_set_of_ne h v rest
    by_cases h₀ : k₀ = k
    · subst h₀
      simp [set, get, h]
    · simp [set, get, h₀, ih]

@[simp] theorem get_erase_self (k : String) : ∀ m : Object, (m.erase k).get k = none
  | .empty => rfl
  | .entry k' v rest => by
    by_cases h : k' = k
    · simpa [erase, h] using get_erase_self k rest
    · simpa [erase, get, h] using get_erase_self k rest

theorem get_erase_of_ne {k k' : String} (h : k ≠ k') : ∀ m : Object,
    (m.erase k).get k' = m.get k'
  | .empty => rfl
  | .entry k₀ v₀ rest => by
    have ih := get_erase_of_ne h rest
    by_cases h₀ : k₀ = k
    · subst h₀
      simp [erase, get, h, ih]
    · simp [erase, get, h₀, ih]

@[simp] theorem erase_set_self (k : String) (v : Value) : ∀ m : Object,
    (m.set k v).erase k = m.erase k
  | .empty => by simp [set, erase]
  | .entry k' v' rest => by
    by_cases h : k' = k
    · simp [set, erase, h]
    · simpa [set, erase, h] using erase_set_self k v rest

theorem erase_comm (k k' : String) : ∀ m : Object, (m.erase k).erase k' = (m.erase k').erase k
  | .empty => rfl
  | .entry k₀ v₀ rest => by
    have ih := erase_comm k k' rest
    by_cases h : k₀ = k
    · subst h
      by_cases h' : k₀ = k'
      · subst h'
        rfl
      · simp [erase, h', ih]
    · by_cases h' : k₀ = k'
      · subst h'
        simp [erase, h, ih]
      · simp [erase, h, h', ih]

@[simp] theorem erase_erase_self (k : String) : ∀ m : Object, (m.erase k).erase k = m.erase k
  | .empty => rfl
  | .entry k₀ v₀ rest => by
    by_cases h : k₀ = k
    · simpa [erase, h] using erase_erase_self k rest
    · simpa [erase, h] using erase_erase_self k rest

theorem erase_of_get_eq_none {k : String} : ∀ {m : Object}, m.get k = none → m.erase k = m
  | .empty, _ => rfl
  | .entry k' v rest, h => by
    by_cases hk : k' = k
    · simp [get, hk] at h
    · rw [get, if_neg hk] at h
      rw [erase, if_neg hk, erase_of_get_eq_none h]

theorem get_foldl_erase (ks : List String) (m : Object) (k : String) :
    (ks.foldl (fun m k => m.erase k) m).get k = if k ∈ ks then none else m.get k := by
  induction ks generalizing m with
  | nil => simp
  | cons k₀ ks ih =>
    rw [List.foldl_cons, ih]
    by_cases h : k₀ = k
    · subst h
      simp
    · simp [get_erase_of_ne h, Ne.symm h]

end Object

end Json
