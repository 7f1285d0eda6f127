import Mathlib.Data.List.Induction
import AuthServer.Interleave.Contract

/-!
# Programs that need the store to themselves for one step

Some programs are correct only if certain steps of the others do not happen while they are under
way. Such a step is *disturbing*: it does not move the store along the relation that the programs
rely on. If every disturbing step is taken while no other program is under way, programs that are
safe against undisturbing steps keep their invariant together.

## Main results

* `Interleave.Pool.inv_of_exclusive`: the rule, for every schedule.
-/

namespace Interleave

variable {ι κ σ ε : Type} {α : ι → Type}

/-- The program makes no further call. -/
def Prog.Done {β : Type} : Prog σ ε β → Prop
  | ret _ => True
  | fail _ => True
  | call _ _ _ => False

theorem Safe.outcome {β γ : Type} {C : Contract κ σ} {k : κ} {Q : β → σ → Prop} {E : ε → σ → Prop}
    {f : σ → γ × σ} {o : Option γ} {g : γ → Prog σ ε β} {s : σ}
    (h : Safe C k Q E (.call f o g) s) (hs : C.inv s) (hadm : ∀ u v, C.admits k u v)
    (hfaulty : C.faulty) (bad : Bool) :
    C.inv (Prog.outcome f o bad s).2 ∧
      ∀ t, C.rely k (Prog.outcome f o bad s).2 t → C.inv t →
        Safe C k Q E (g (Prog.outcome f o bad s).1) t := by
  obtain ⟨hinv, -, hnext⟩ := h.1 (hadm _ _)
  cases bad with
  | false =>
    rw [Prog.outcome_false]
    exact ⟨hinv, hnext⟩
  | true =>
    cases o with
    | none => exact ⟨hinv, hnext⟩
    | some b => exact ⟨hs, h.2 hfaulty b rfl⟩

namespace Pool

variable [DecidableEq ι]

/-- Whenever a step of the schedule disturbs the others, each of them has not begun or is done. -/
def Exclusive (calm : σ → σ → Prop) (c : Pool ι σ ε α) (sched : Schedule ι) : Prop :=
  ∀ pre i bad post, sched = pre ++ (i, bad) :: post →
    ¬ calm (c.exec pre).store ((c.exec pre).step i bad).store →
    ∀ j, j ≠ i → (∀ e ∈ pre, e.1 ≠ j) ∨ ((c.exec pre).procs j).Done

variable {C : Contract κ σ} {k : κ} {c : Pool ι σ ε α} {sched : Schedule ι}

theorem safe_step_self {i : ι} {Q : α i → σ → Prop} {E : ε → σ → Prop} (hs : C.inv c.store)
    (hsafe : Safe C k Q E (c.procs i) c.store) (hadm : ∀ u v, C.admits k u v)
    (hfaulty : C.faulty)
      (hdone : ∀ p : Prog σ ε (α i), p.Done → ∀ t, Safe C k Q E p t) (bad : Bool) :
    C.inv (c.step i bad).store ∧
      ∀ t, C.rely k (c.step i bad).store t → C.inv t → Safe C k Q E ((c.step i bad).procs i) t := by
  cases hproc : c.procs i with
  | ret a =>
    have hstep : c.step i bad = c := by simp only [step, hproc]
    rw [hstep, hproc]
    exact ⟨hs, fun t _ _ => hdone (.ret a) trivial t⟩
  | fail e =>
    have hstep : c.step i bad = c := by simp only [step, hproc]
    rw [hstep, hproc]
    exact ⟨hs, fun t _ _ => hdone (.fail e) trivial t⟩
  | call f o g =>
    have hstep : c.step i bad = ⟨(Prog.outcome f o bad c.store).2,
        Function.update c.procs i (g (Prog.outcome f o bad c.store).1)⟩ := by
      simp only [step, hproc]
    rw [hproc] at hsafe
    simp only [hstep, Function.update_self]
    exact hsafe.outcome hs hadm hfaulty bad

/-- **Exclusive steps.** Programs that are safe against undisturbing steps, from every store they
may start in, keep the invariant together if disturbing steps are taken by one program at a time. -/
theorem inv_of_exclusive (hadm : ∀ u v, C.admits k u v) (hfaulty : C.faulty)
    (hinv : C.inv c.store) (hstart : ∀ i s, C.inv s →
      Safe C k (fun _ _ => True) (fun _ _ => True) (c.procs i) s)
    (hexcl : Exclusive (C.rely k) c sched) {pre : Schedule ι} (hpre : pre <+: sched) :
    C.inv (c.exec pre).store := by
  have hdone : ∀ {β : Type} (p : Prog σ ε β), p.Done → ∀ t,
      Safe C k (fun _ _ => True) (fun _ _ => True) p t := by
    intro β p hp t
    cases p with
    | ret a => trivial
    | fail e => trivial
    | call f o g => exact hp.elim
  -- along the schedule, every participant is safe in whatever undisturbing steps make of the store
  have hall : C.inv (c.exec pre).store ∧ ∀ j t, C.rely k (c.exec pre).store t → C.inv t →
      Safe C k (fun _ _ => True) (fun _ _ => True) ((c.exec pre).procs j) t := by
    induction pre using List.reverseRecOn with
    | nil => exact ⟨hinv, fun j t _ ht => hstart j t ht⟩
    | append_singleton pre e ih =>
      obtain ⟨i, bad⟩ := e
      obtain ⟨post, rfl⟩ := hpre
      obtain ⟨hs, hsafe⟩ := ih ⟨(i, bad) :: post, by simp⟩
      have hself := safe_step_self hs (hsafe i _ (C.rely_refl k _) hs) hadm hfaulty hdone bad
      rw [exec_append]
      refine ⟨hself.1, fun j t hst ht => ?_⟩
      by_cases hj : j = i
      · subst hj
        exact hself.2 t hst ht
      · change Safe C k _ _ (((c.exec pre).step i bad).procs j) t
        rw [procs_step_of_ne bad (Ne.symm hj)]
        by_cases hcalm : C.rely k (c.exec pre).store ((c.exec pre).step i bad).store
        · exact hsafe j t (C.rely_trans hcalm hst) ht
        · rcases hexcl pre i bad post (by simp) hcalm j hj with hnot | hfin
          · rw [procs_exec_of_not_mem pre hnot]
            exact hstart j t ht
          · exact hdone _ hfin t
  exact hall.1

end Pool

end Interleave
