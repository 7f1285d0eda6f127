import Mathlib.Logic.Relation

/-!
# Acyclic relations

A relation is acyclic if no element reaches itself. Removing pairs keeps it so, and so does adding
one whose end does not reach its start. -/

namespace Graph

variable {α : Type*} {r r' : α → α → Prop}

/-- No element reaches itself. -/
def Acyclic (r : α → α → Prop) : Prop := ∀ a, ¬ Relation.TransGen r a a

theorem Acyclic.mono (h : Acyclic r) (hsub : ∀ a b, r' a b → r a b) : Acyclic r' :=
  fun a ha => h a (Relation.TransGen.mono hsub _ _ ha)

/-- A way in the larger relation goes through the new pair or is one of the smaller. -/
theorem transGen_or_through {source target a b : α}
    (hsub : ∀ a b, r' a b → r a b ∨ (a = source ∧ b = target)) (h : Relation.TransGen r' a b) :
    Relation.TransGen r a b ∨
      (Relation.ReflTransGen r a source ∧ Relation.ReflTransGen r target b) := by
  induction h with
  | single hab =>
    rcases hsub _ _ hab with hab | ⟨rfl, rfl⟩
    · exact .inl (.single hab)
    · exact .inr ⟨.refl, .refl⟩
  | tail _ hbc ih =>
    rcases hsub _ _ hbc with hbc | ⟨rfl, rfl⟩
    · rcases ih with ih | ⟨hin, hout⟩
      · exact .inl (ih.tail hbc)
      · exact .inr ⟨hin, hout.tail hbc⟩
    · rcases ih with ih | ⟨hin, -⟩
      · exact .inr ⟨ih.to_reflTransGen, .refl⟩
      · exact .inr ⟨hin, .refl⟩

/-- Adding a pair whose end does not reach its start. -/
theorem Acyclic.insert {source target : α} (h : Acyclic r) (hsub : ∀ a b, r' a b → r a b ∨
    (a = source ∧ b = target))
    (hback : ¬ Relation.ReflTransGen r target source) : Acyclic r' := by
  intro a ha
  rcases transGen_or_through hsub ha with ha | ⟨hin, hout⟩
  · exact h a ha
  · exact hback (hout.trans hin)

/-- What is reached from a member of a closed set is in the set. -/
theorem mem_of_closed {s : α → Prop} (hclosed : ∀ a b, s a → r a b → s b) {a b : α} (ha : s a)
    (h : Relation.ReflTransGen r a b) : s b := by
  induction h with
  | refl => exact ha
  | tail _ hbc ih => exact hclosed _ _ ih hbc

end Graph
