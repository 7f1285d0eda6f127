import Mathlib.Logic.Function.Basic

/-!
# Machines that take actions

A system whose steps are labelled: in a state, an action is impossible or leads to one next state.
The nondeterminism of the environment is in the choice of the actions.

## Main results

* `Interleave.Machine.invariant`: what every allowed step keeps holds after every run of allowed
  steps. -/

namespace Interleave

namespace Machine

variable {S A : Type}

/-- The state after the actions, if all of them are possible. -/
def run (step : S → A → Option S) : S → List A → Option S
  | s, [] => some s
  | s, a :: rest => (step s a).bind fun s' => run step s' rest

/-- Every action of a run is taken in a state that allows it. -/
def Along (step : S → A → Option S) (allowed : S → A → Prop) : S → List A → Prop
  | _, [] => True
  | s, a :: rest => allowed s a ∧ ∀ s', step s a = some s' → Along step allowed s' rest

variable {step : S → A → Option S} {allowed : S → A → Prop} {s s' : S}

theorem Along.cons {a : A} {rest : List A}
    (ha : allowed s a) (hstep : step s a = some s') (hrest : Along step allowed s' rest) :
    Along step allowed s (a :: rest) := by
  refine ⟨ha, fun t ht => ?_⟩
  obtain rfl : s' = t := Option.some.inj (hstep.symm.trans ht)
  exact hrest

/-- **Invariants.** -/
theorem invariant {I : S → Prop}
    (hstep : ∀ s a s', I s → allowed s a → step s a = some s' → I s') {actions : List A}
    (hs : I s) (hallowed : Along step allowed s actions)
      (hrun : run step s actions = some s') : I s' := by
  induction actions generalizing s with
  | nil =>
    obtain rfl := Option.some.inj hrun
    exact hs
  | cons a rest ih =>
    obtain ⟨s₁, hs₁, hrest⟩ := Option.bind_eq_some_iff.mp hrun
    exact ih (hstep s a s₁ hs hallowed.1 hs₁) (hallowed.2 s₁ hs₁) hrest

end Machine

end Interleave
