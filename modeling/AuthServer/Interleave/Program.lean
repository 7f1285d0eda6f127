import Mathlib.Logic.Function.Basic
import Mathlib.Data.List.Basic

/-!
# Programs over a shared store

A service talks to its store one atomic call at a time and does everything else on its own. `Prog`
is that view of a program: a tree whose inner nodes are the atomic calls and whose leaves are a
result or an error. Between two calls nothing is shared, so an execution of several programs is
fixed by the order in which their calls happen.

Two semantics are given for the same trees:

* `Prog.run` executes one program alone;
* `Pool.exec` executes any family of programs, one call at a time, in the order a schedule says.

Every call may be made to fail: the caller of `run` supplies a *fault plan*, and a schedule says for
each step whether the store fails it. A failed call leaves the store as it was and hands the program
the answer `onFault` declared at the call. A call with no such answer cannot fail. -/

namespace Interleave

/-- A program over a store `σ`, with errors `ε` and results `α`. A node `call f onFault k` makes the
atomic call `f` and goes on with `k` at the answer; when the store fails the call, `k` is given the
answer in `onFault`, if there is one. -/
inductive Prog (σ ε α : Type) : Type 1
  | ret (a : α)
  | fail (e : ε)
  | call {β : Type} (f : σ → β × σ) (onFault : Option β) (k : β → Prog σ ε α)

namespace Prog

variable {σ ε α β γ : Type}

/-- Sequencing: an error ends the program. -/
def bind : Prog σ ε α → (α → Prog σ ε β) → Prog σ ε β
  | ret a, g => g a
  | fail e, _ => fail e
  | call f o k, g => call f o fun b => (k b).bind g

/-- Run a program to its result or its error and return either as a value. -/
def attempt : Prog σ ε α → Prog σ ε (Except ε α)
  | ret a => ret (.ok a)
  | fail e => ret (.error e)
  | call f o k => call f o fun b => (k b).attempt

instance : Monad (Prog σ ε) where
  pure := ret
  bind := bind

theorem pure_bind (a : α) (g : α → Prog σ ε β) : (pure a : Prog σ ε α) >>= g = g a := rfl

theorem bind_assoc (p : Prog σ ε α) (g : α → Prog σ ε β) (h : β → Prog σ ε γ) :
    p >>= g >>= h = p >>= fun a => g a >>= h := by
  induction p with
  | ret a => rfl
  | fail e => rfl
  | call f o k ih => exact congrArg (call f o) (funext fun b => ih b)

/-! ### Calls -/

/-- An atomic step that the store cannot fail. -/
def step (f : σ → β × σ) : Prog σ ε β :=
  call f none ret

/-- The program that has the given result or error and makes no call. -/
def ofExcept : Except ε α → Prog σ ε α
  | .ok a => ret a
  | .error e => fail e

/-- A store call that may write. Its error, or `fault` when the store fails the call, is the error
of the program. -/
def exec (fault : ε) (f : σ → Except ε β × σ) : Prog σ ε β :=
  call f (some (.error fault)) ofExcept

/-- A store call that only reads. -/
def query (fault : ε) (f : σ → Except ε β) : Prog σ ε β :=
  exec fault fun s => (f s, s)

/-- Stop with `e` when `c` holds. -/
def failIf (c : Bool) (e : ε) : Prog σ ε Unit :=
  if c then fail e else ret ()

variable {δ : Type}

def mapError (f : ε → δ) : Prog σ ε α → Prog σ δ α
  | ret a => ret a
  | fail e => fail (f e)
  | call g o k => call g o fun b => (k b).mapError f

variable {τ : Type}

/-- The program on a part of a larger store, which `get` reads and `put` writes. -/
def zoom (get : τ → σ) (put : σ → τ → τ) : Prog σ ε α → Prog τ ε α
  | ret a => ret a
  | fail e => fail e
  | call f o k => call (fun t => ((f (get t)).1, put (f (get t)).2 t)) o fun b => (k b).zoom get put

/-! ### Sequential execution -/

/-- The answer and the store after one call, with `bad` telling whether the store fails it. -/
def outcome (f : σ → β × σ) (o : Option β) (bad : Bool) (s : σ) : β × σ :=
  match bad, o with
  | true, some b => (b, s)
  | _, _ => f s

@[simp] theorem outcome_false (f : σ → β × σ) (o : Option β) (s : σ) :
    outcome f o false s = f s := by
  cases o <;> rfl

/-- Execute a program alone. The `n`-th call fails when the `n`-th entry of the plan is `true`;
calls past the end of the plan succeed. -/
def run : Prog σ ε α → List Bool → σ → Except ε α × σ
  | ret a, _, s => (.ok a, s)
  | fail e, _, s => (.error e, s)
  | call f o k, plan, s =>
      (k (outcome f o (plan.headD false) s).1).run plan.tail (outcome f o (plan.headD false) s).2

@[simp] theorem run_ofExcept (r : Except ε α) (plan : List Bool) (s : σ) :
    (ofExcept r).run plan s = (r, s) := by
  cases r <;> rfl

theorem run_failIf (c : Bool) (e : ε) (plan : List Bool) (s : σ) :
    (failIf c e).run plan s = (if c then .error e else .ok (), s) := by
  cases c <;> rfl

/-- Executing one program after another, with no call failing. -/
theorem run_bind (p : Prog σ ε α) (g : α → Prog σ ε β) (s : σ) :
    (p >>= g).run [] s =
      match p.run [] s with
      | (.ok a, t) => (g a).run [] t
      | (.error e, t) => (.error e, t) := by
  induction p generalizing s with
  | ret a => rfl
  | fail e => rfl
  | call f o k ih => exact ih _ _

variable {plan : List Bool}

theorem run_of_forall_false (p : Prog σ ε α) (h : ∀ b ∈ plan, b = false) (s : σ) :
    p.run plan s = p.run [] s := by
  induction p generalizing plan s with
  | ret a => rfl
  | fail e => rfl
  | call f o k ih =>
    cases plan with
    | nil => rfl
    | cons b rest =>
      obtain rfl : b = false := h b (List.mem_cons_self ..)
      exact ih _ (fun b hb => h b (List.mem_cons_of_mem _ hb)) _

theorem run_attempt (p : Prog σ ε α) (plan : List Bool) (s : σ) :
    (p.attempt : Prog σ ε (Except ε α)).run plan s = (.ok (p.run plan s).1, (p.run plan s).2) := by
  induction p generalizing plan s with
  | ret a => rfl
  | fail e => rfl
  | call f o k ih => exact ih _ _ _

theorem run_mapError (f : ε → δ) (p : Prog σ ε α) (plan : List Bool) (s : σ) :
    (p.mapError f).run plan s = ((p.run plan s).1.mapError f, (p.run plan s).2) := by
  induction p generalizing plan s with
  | ret a => rfl
  | fail e => rfl
  | call g o k ih => exact ih _ _ _

/-- Running on a part: the part changes as it would alone, and the rest is what `put` leaves. -/
theorem run_zoom {get : τ → σ} {put : σ → τ → τ} (get_put : ∀ s t, get (put s t) = s)
    (put_put : ∀ s s' t, put s' (put s t) = put s' t) (put_get : ∀ t, put (get t) t = t)
    (p : Prog σ ε α) (plan : List Bool) (s : τ) :
    (p.zoom get put).run plan s = ((p.run plan (get s)).1, put (p.run plan (get s)).2 s) := by
  induction p generalizing plan s with
  | ret a => exact Prod.ext rfl (put_get s).symm
  | fail e => exact Prod.ext rfl (put_get s).symm
  | call f o k ih =>
    have hcall : outcome (fun t => ((f (get t)).1, put (f (get t)).2 t)) o (plan.headD false) s =
        ((outcome f o (plan.headD false) (get s)).1,
          put (outcome f o (plan.headD false) (get s)).2 s) := by
      unfold outcome
      split
      · exact Prod.ext rfl (put_get s).symm
      · rfl
    have hstep := ih (outcome f o (plan.headD false) (get s)).1 plan.tail
      (put (outcome f o (plan.headD false) (get s)).2 s)
    rw [get_put, put_put] at hstep
    rw [zoom, run, hcall]
    exact hstep

variable {p : Prog σ ε α} {s t : σ} {a : α}

/-- After a first part none of whose calls fails, a plan goes on in the second. -/
theorem exists_run_bind_append (h : p.run [] s = (.ok a, t)) :
    ∃ n, ∀ (g : α → Prog σ ε β) (rest : List Bool),
      (p >>= g).run (List.replicate n false ++ rest) s = (g a).run rest t := by
  induction p generalizing s with
  | ret b =>
    obtain ⟨hb, rfl⟩ := Prod.mk.inj h
    obtain rfl := Except.ok.inj hb
    exact ⟨0, fun g rest => rfl⟩
  | fail e => cases (Prod.mk.inj h).1
  | call f o k ih =>
    obtain ⟨n, hn⟩ := ih _ h
    exact ⟨n + 1, fun g rest => hn g rest⟩

/-- A sequence goes on after a first part that has a result, whatever calls failed. -/
theorem exists_run_bind
    (h : p.run plan s = (.ok a, t)) (g : α → Prog σ ε β) : ∃ rest,
      (p >>= g).run plan s = (g a).run rest t := by
  induction p generalizing plan s with
  | ret b =>
    obtain ⟨hb, rfl⟩ := Prod.mk.inj h
    obtain rfl := Except.ok.inj hb
    exact ⟨plan, rfl⟩
  | fail e => cases (Prod.mk.inj h).1
  | call f o k ih => exact ih _ h

variable {g : α → Prog σ ε β}

/-- A sequence that has a result, whatever calls failed: so had its first part. -/
theorem ok_of_run_bind {b : β}
    (h : (p >>= g).run plan s = (.ok b, t)) :
    ∃ a u rest, p.run plan s = (.ok a, u) ∧ (g a).run rest u = (.ok b, t) := by
  induction p generalizing plan s with
  | ret a => exact ⟨a, s, plan, rfl, h⟩
  | fail e => cases (Prod.mk.inj h).1
  | call f o k ih => exact ih _ h

variable {f : σ → Except ε α × σ} {fault : ε}

/-- A store call that has a result was made. -/
theorem ok_of_run_exec
    (h : (exec fault f).run plan s = (.ok a, t)) : f s = (.ok a, t) := by
  rw [exec, run, run_ofExcept] at h
  generalize plan.headD false = bad at h
  cases bad with
  | false => exact h
  | true => cases (Prod.mk.inj h).1

/-- A condition that did not stop the program. -/
theorem ok_of_run_failIf {c : Bool} {e : ε} {u : Unit}
    (h : (failIf c e).run plan s = (.ok u, t)) : c = false ∧ t = s := by
  cases c with
  | false => exact ⟨rfl, (Prod.mk.inj h).2.symm⟩
  | true => cases (Prod.mk.inj h).1

variable {r : Except ε α}

theorem ok_of_run_ofExcept
    (h : (ofExcept r).run plan s = (.ok a, t)) : r = .ok a ∧ t = s := by
  rw [run_ofExcept] at h
  exact ⟨(Prod.mk.inj h).1, (Prod.mk.inj h).2.symm⟩

theorem ok_of_run_mapError {f : ε → δ}
    (h : (p.mapError f).run plan s = (.ok a, t)) : p.run plan s = (.ok a, t) := by
  rw [run_mapError] at h
  obtain ⟨hok, hstate⟩ := Prod.mk.inj h
  refine Prod.ext ?_ hstate
  cases hr : (p.run plan s).1 with
  | ok b =>
    rw [hr] at hok
    exact congrArg _ (Except.ok.inj hok)
  | error e =>
    rw [hr] at hok
    cases hok

/-- A sequence ends with its first part, or goes on after it. -/
theorem cases_of_run_bind {r : Except ε β}
    (h : (p >>= g).run [] s = (r, t)) :
    (∃ e, p.run [] s = (.error e, t) ∧ r = .error e) ∨
      ∃ a u, p.run [] s = (.ok a, u) ∧ (g a).run [] u = (r, t) := by
  rw [run_bind] at h
  cases hp : p.run [] s with
  | mk r' u =>
    rw [hp] at h
    cases r' with
    | error e =>
      obtain ⟨rfl, rfl⟩ := Prod.mk.inj h
      exact .inl ⟨e, rfl, rfl⟩
    | ok a => exact .inr ⟨a, u, rfl, h⟩

/-- The same, whatever calls failed. -/
theorem split_run_bind {r : Except ε β}
    (h : (p >>= g).run plan s = (r, t)) :
    (∃ e, p.run plan s = (.error e, t) ∧ r = .error e) ∨
      ∃ a u rest, p.run plan s = (.ok a, u) ∧ (g a).run rest u = (r, t) := by
  induction p generalizing plan s with
  | ret a => exact .inr ⟨a, s, plan, rfl, h⟩
  | fail e =>
    obtain ⟨rfl, rfl⟩ := Prod.mk.inj h
    exact .inl ⟨e, rfl, rfl⟩
  | call f o k ih => exact ih _ h

/-- A store call is made, or the store fails it. -/
theorem split_run_exec
    (h : (exec fault f).run plan s = (r, t)) : f s = (r, t) ∨ r = .error fault ∧ t = s := by
  rw [exec, run, run_ofExcept] at h
  generalize plan.headD false = bad at h
  cases bad with
  | false => exact .inl h
  | true =>
    obtain ⟨rfl, rfl⟩ := Prod.mk.inj h
    exact .inr ⟨rfl, rfl⟩

/-! ### One program after another -/

section

variable {κ : Type} {prog : κ → Prog σ ε α}

/-- The store after a sequence of calls, each executed alone and with the store failures of its own
plan. -/
def runSeq (prog : κ → Prog σ ε α) : List (κ × List Bool) → σ → σ
  | [], s => s
  | (k, plan) :: rest, s => runSeq prog rest ((prog k).run plan s).2

theorem runSeq_concat (calls : List (κ × List Bool)) (k : κ) (plan : List Bool) (s : σ) :
    runSeq prog (calls ++ [(k, plan)]) s = ((prog k).run plan (runSeq prog calls s)).2 := by
  induction calls generalizing s with
  | nil => rfl
  | cons _ rest ih => exact ih _

/-- What every call preserves holds after the sequence. -/
theorem inv_runSeq {I : σ → Prop} (hstep : ∀ k plan s, I s → I ((prog k).run plan s).2)
    (calls : List (κ × List Bool)) (hs : I s) : I (runSeq prog calls s) := by
  induction calls generalizing s with
  | nil => exact hs
  | cons c rest ih => exact ih (hstep c.1 c.2 s hs)

end

end Prog

export Prog (failIf)

/-! ### Interleaved execution -/

/-- Who makes the next call, and whether the store fails it. -/
abbrev Schedule (ι : Type) := List (ι × Bool)

/-- A store together with what each of the programs working on it has left to do. -/
structure Pool (ι σ ε : Type) (α : ι → Type) : Type 1 where
  /-- The shared store. -/
  store : σ
  /-- The remaining program of each participant. -/
  procs : (i : ι) → Prog σ ε (α i)

namespace Pool

variable {ι σ ε : Type} {α : ι → Type} [DecidableEq ι]

/-- Participant `i` makes its next call, which the store fails when `bad` is set. A participant that
is done does nothing. -/
def step (c : Pool ι σ ε α) (i : ι) (bad : Bool) : Pool ι σ ε α :=
  match c.procs i with
  | .call f o k =>
      { store := (Prog.outcome f o bad c.store).2
        procs := Function.update c.procs i (k (Prog.outcome f o bad c.store).1) }
  | .ret _ => c
  | .fail _ => c

/-- Execute a schedule: a list of participants, each with the verdict of the store on that step. -/
def exec (c : Pool ι σ ε α) : Schedule ι → Pool ι σ ε α
  | [] => c
  | (i, bad) :: rest => (c.step i bad).exec rest

@[simp] theorem exec_nil (c : Pool ι σ ε α) : c.exec [] = c := rfl

theorem exec_append (c : Pool ι σ ε α) (sched sched' : Schedule ι) :
    c.exec (sched ++ sched') = (c.exec sched).exec sched' := by
  induction sched generalizing c with
  | nil => rfl
  | cons e rest ih => exact ih _

end Pool

end Interleave
