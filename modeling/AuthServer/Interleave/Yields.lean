import AuthServer.Interleave.Contract

/-!
# Results under arbitrary interference

Some properties of a result do not depend on what else happens to the store: a value that was
computed from the request and from what single calls returned, in whatever stores these calls met.
`Yields Q p` says that every result `p` can have satisfies `Q`, with each call answered in a store
of its own or failed. There is no contract to keep: the property holds in every pool the program is
part of.

## Main results

* `Prog.Yields.bind`, `Prog.Yields.skip`: sequencing, and passing over a stretch of calls.
* `Pool.yields_exec`: soundness for every schedule.
* `Safe.and_yields`: such a property added to what a contract establishes.
-/

namespace Interleave

namespace Prog

variable {σ ε α β : Type}

/-- Every result the program can have, in whatever stores its calls are made, satisfies `Q`. -/
def Yields (Q : α → Prop) : Prog σ ε α → Prop
  | ret a => Q a
  | fail _ => True
  | call f o k => (∀ s, (k (f s).1).Yields Q) ∧ ∀ b ∈ o, (k b).Yields Q

variable {Q : α → Prop}

theorem yields_pure {a : α} (h : Q a) : (pure a : Prog σ ε α).Yields Q := h

theorem yields_fail {e : ε} : (fail e : Prog σ ε α).Yields Q := trivial

theorem yields_true (p : Prog σ ε α) : p.Yields fun _ => True := by
  induction p with
  | ret a => trivial
  | fail e => trivial
  | call f o k ih => exact ⟨fun s => ih _, fun b _ => ih b⟩

variable {p : Prog σ ε α}

theorem Yields.mono {Q' : α → Prop} (h : p.Yields Q) (hQ : ∀ a, Q a → Q' a) : p.Yields Q' := by
  induction p with
  | ret a => exact hQ a h
  | fail e => trivial
  | call f o k ih => exact ⟨fun s => ih _ (h.1 s), fun b hb => ih b (h.2 b hb)⟩

variable {g : β → Prog σ ε α}

/-- **Sequencing.** -/
theorem Yields.bind {p : Prog σ ε β} (h : p.Yields fun b => (g b).Yields Q) :
    (p >>= g).Yields Q := by
  induction p with
  | ret b => exact h
  | fail e => trivial
  | call f o k ih => exact ⟨fun s => ih _ (h.1 s), fun b hb => ih b (h.2 b hb)⟩

/-- Passing over calls whose answer does not matter. -/
theorem Yields.skip {p : Prog σ ε β} (h : ∀ b, (g b).Yields Q) : (p >>= g).Yields Q :=
  Yields.bind ((yields_true p).mono fun b _ => h b)

theorem Yields.attempt {Q : Except ε α → Prop} (h : p.Yields fun a => Q (.ok a))
    (he : ∀ e, Q (.error e)) : p.attempt.Yields Q := by
  induction p with
  | ret a => exact h
  | fail e => exact he e
  | call f o k ih => exact ⟨fun s => ih _ (h.1 s), fun b hb => ih b (h.2 b hb)⟩

theorem yields_ofExcept {r : Except ε α} (h : ∀ a, r = .ok a → Q a) :
    (ofExcept r : Prog σ ε α).Yields Q := by
  cases r with
  | ok a => exact h a rfl
  | error e => trivial

theorem yields_failIf {c : Bool} {e : ε} {Q : Unit → Prop} (h : c = false → Q ()) :
    (failIf c e : Prog σ ε Unit).Yields Q := by
  cases c with
  | false => exact h rfl
  | true => trivial

variable {fault : ε}

theorem yields_exec {f : σ → Except ε α × σ} (h : ∀ s a, (f s).1 = .ok a → Q a) :
    (exec fault f).Yields Q := by
  refine ⟨fun s => yields_ofExcept (h s), fun b hb => ?_⟩
  obtain rfl : Except.error fault = b := by simpa using hb
  trivial

/-- A read: what it returned was in some store. -/
theorem yields_query {f : σ → Except ε α} (h : ∀ s a, f s = .ok a → Q a) :
    (query fault f).Yields Q :=
  yields_exec h

/-- A program executed alone has one of the results it can have. -/
theorem Yields.run (h : p.Yields Q) {plan : List Bool} {s : σ} {a : α}
    (hrun : (p.run plan s).1 = .ok a) : Q a := by
  induction p generalizing plan s with
  | ret b => exact Except.ok.inj hrun ▸ h
  | fail e => cases hrun
  | call f o k ih =>
    refine ih _ ?_ hrun
    cases hbad : plan.headD false <;> cases o
    · exact h.1 s
    · exact h.1 s
    · exact h.1 s
    · exact h.2 _ rfl

end Prog

/-- What every result satisfies may be added to a postcondition. -/
theorem Safe.and_yields {ι σ ε α : Type} {C : Contract ι σ} {i : ι} {Q : α → σ → Prop}
    {E : ε → σ → Prop} {R : α → Prop} {p : Prog σ ε α} {s : σ} (h : Safe C i Q E p s)
    (hR : p.Yields R) : Safe C i (fun a t => Q a t ∧ R a) E p s := by
  induction p generalizing s with
  | ret a => exact ⟨h, hR⟩
  | fail e => exact h
  | call f o k ih =>
    refine ⟨fun hadm => ?_, fun hf b hb t hst ht => ih b (h.2 hf b hb t hst ht) (hR.2 b hb)⟩
    obtain ⟨hinv, hguar, hk⟩ := h.1 hadm
    exact ⟨hinv, hguar, fun t hst ht => ih _ (hk t hst ht) (hR.1 s)⟩

namespace Pool

variable {ι σ ε : Type} {α : ι → Type} [DecidableEq ι] {c : Pool ι σ ε α} {i : ι} {Q : α i → Prop}

theorem yields_step (h : (c.procs i).Yields Q) (j : ι) (bad : Bool) :
    ((c.step j bad).procs i).Yields Q := by
  unfold Pool.step
  split
  · rename_i f o k hp
    by_cases hij : i = j
    · subst hij
      rw [hp] at h
      simp only [Function.update_self]
      by_cases hfault : ∃ b, bad = true ∧ o = some b
      · obtain ⟨b, rfl, rfl⟩ := hfault
        exact h.2 b rfl
      · have hout : Prog.outcome f o bad c.store = f c.store := by
          cases bad <;> cases o <;> simp_all [Prog.outcome]
        rw [hout]
        exact h.1 c.store
    · simpa [Function.update_of_ne hij] using h
  · exact h
  · exact h

/-- **Soundness.** Whatever the schedule, a participant that returned has one of the results its
program can have. -/
theorem yields_exec (h : (c.procs i).Yields Q) (sched : Schedule ι) {a : α i}
    (hret : (c.exec sched).procs i = .ret a) : Q a := by
  induction sched generalizing c with
  | nil =>
    rw [exec_nil] at hret
    rwa [hret] at h
  | cons e rest ih => exact ih (yields_step h e.1 e.2) hret

end Pool

end Interleave
