import AuthServer.Interleave.Contract

/-!
# Programs that run alone while the store moves

`Prog.run` executes a program in no time. Here the store may move by itself before each call, a
clock in it may advance, say; a *pace* says how, call by call, and which calls the store fails.

The second part counts, over a run of steps one after another, those at which something happens.
That it happens at most once follows from a mark which its first occurrence leaves, which every step
keeps, and under which it does not happen.

## Main results

* `Interleave.Prog.runPaced_bind`: running two programs in sequence.
* `Interleave.Prog.Each.runPaced`: a run follows every relation that its calls and waiting follow.
* `Interleave.hits_le_one`: at most one occurrence in a run.
-/

namespace Interleave

namespace Prog

variable {σ ε α β τ : Type} {wait : τ → σ → σ}

/-- Execute a program alone at the given pace: before the `n`-th call the store moves as the `n`-th
entry says, which also tells whether the store fails the call. Past the end of the pace the store
does not move and calls succeed. -/
def runPaced (wait : τ → σ → σ) : Prog σ ε α → List (τ × Bool) → σ → Except ε α × σ
  | ret a, _, s => (.ok a, s)
  | fail e, _, s => (.error e, s)
  | call f _ k, [], s => (k (f s).1).runPaced wait [] (f s).2
  | call f o k, (d, bad) :: pace, s =>
      (k (outcome f o bad (wait d s)).1).runPaced wait pace (outcome f o bad (wait d s)).2

/-- A sequence either stops in its first part or goes on with the second at the rest of the pace. -/
theorem runPaced_bind (p : Prog σ ε α) (g : α → Prog σ ε β) (pace : List (τ × Bool)) (s : σ) :
    (∃ e t, p.runPaced wait pace s = (.error e, t) ∧
      (p >>= g).runPaced wait pace s = (.error e, t)) ∨
    ∃ a t rest, p.runPaced wait pace s = (.ok a, t) ∧
      (p >>= g).runPaced wait pace s = (g a).runPaced wait rest t := by
  induction p generalizing pace s with
  | ret a => exact .inr ⟨a, s, pace, rfl, rfl⟩
  | fail e => exact .inl ⟨e, s, rfl, rfl⟩
  | call f o k ih =>
    cases pace with
    | nil => exact ih _ _ _
    | cons d pace => exact ih _ _ _

/-- A sequence that has a result: so had its first part. -/
theorem ok_of_runPaced_bind {p : Prog σ ε α} {g : α → Prog σ ε β} {pace : List (τ × Bool)} {s t : σ}
    {b : β} (h : (p >>= g).runPaced wait pace s = (.ok b, t)) :
    ∃ a u rest, p.runPaced wait pace s = (.ok a, u) ∧ (g a).runPaced wait rest u = (.ok b, t) := by
  rcases runPaced_bind p g pace s with ⟨e, u, -, hstop⟩ | ⟨a, u, rest, hp, hgo⟩
  · rw [hstop] at h
    cases (Prod.mk.inj h).1
  · exact ⟨a, u, rest, hp, hgo ▸ h⟩

/-- The store moved once, or not at all. -/
def Waited (wait : τ → σ → σ) (s t : σ) : Prop :=
  t = s ∨ ∃ d, t = wait d s

theorem runPaced_step_bind (f : σ → α × σ) (g : α → Prog σ ε β) (pace : List (τ × Bool)) (s : σ) :
    ∃ u rest, Waited wait s u ∧
      (step f >>= g).runPaced wait pace s = (g (f u).1).runPaced wait rest (f u).2 := by
  cases pace with
  | nil => exact ⟨s, [], .inl rfl, rfl⟩
  | cons entry pace =>
    obtain ⟨d, bad⟩ := entry
    refine ⟨wait d s, pace, .inr ⟨d, rfl⟩, ?_⟩
    cases bad <;> rfl

theorem runPaced_ofExcept (r : Except ε α) (pace : List (τ × Bool)) (s : σ) :
    (ofExcept r : Prog σ ε α).runPaced wait pace s = (r, s) := by
  cases r <;> rfl

/-- A check that was passed. -/
theorem ok_of_runPaced_ofExcept_bind {r : Except ε α} {g : α → Prog σ ε β} {pace : List (τ × Bool)}
    {s t : σ} {b : β} (h : (ofExcept r >>= g).runPaced wait pace s = (.ok b, t)) :
    ∃ a, r = .ok a ∧ (g a).runPaced wait pace s = (.ok b, t) := by
  cases r with
  | ok a => exact ⟨a, rfl, h⟩
  | error e => cases (Prod.mk.inj h).1

theorem ok_of_runPaced_failIf_bind {c : Bool} {e : ε} {g : Unit → Prog σ ε β}
    {pace : List (τ × Bool)} {s t : σ} {b : β}
    (h : (failIf c e >>= g).runPaced wait pace s = (.ok b, t)) : c = false ∧
      (g ()).runPaced wait pace s = (.ok b, t) := by
  cases c with
  | false => exact ⟨rfl, h⟩
  | true => cases (Prod.mk.inj h).1

/-- A store call: after a wait it is made, or failed. -/
theorem runPaced_exec (fault : ε) (f : σ → Except ε α × σ) (pace : List (τ × Bool)) (s : σ) :
    ∃ u, Waited wait s u ∧ ((exec fault f).runPaced wait pace s = f u ∨
      (exec fault f).runPaced wait pace s = (.error fault, u)) := by
  cases pace with
  | nil => exact ⟨s, .inl rfl, .inl (runPaced_ofExcept _ _ _)⟩
  | cons entry pace =>
    obtain ⟨d, bad⟩ := entry
    refine ⟨wait d s, .inr ⟨d, rfl⟩, ?_⟩
    cases bad with
    | true => exact .inr rfl
    | false => exact .inl (runPaced_ofExcept _ _ _)

/-- A store call that had a result was made. -/
theorem ok_of_runPaced_exec {fault : ε} {f : σ → Except ε α × σ} {pace : List (τ × Bool)} {s t : σ}
    {a : α} (h : (exec fault f).runPaced wait pace s = (.ok a, t)) :
      ∃ u, Waited wait s u ∧ f u = (.ok a, t) := by
  obtain ⟨u, hu, hmade | hfailed⟩ := runPaced_exec fault f pace s
  · exact ⟨u, hu, hmade.symm.trans h⟩
  · cases (Prod.mk.inj (hfailed.symm.trans h)).1

theorem runPaced_attempt (p : Prog σ ε α) (pace : List (τ × Bool)) (s : σ) :
    (p.attempt : Prog σ ε (Except ε α)).runPaced wait pace s =
      (.ok (p.runPaced wait pace s).1, (p.runPaced wait pace s).2) := by
  induction p generalizing pace s with
  | ret a => rfl
  | fail e => rfl
  | call f o k ih =>
    cases pace with
    | nil => exact ih _ _ _
    | cons entry pace => exact ih _ _ _

/-- What follows a handled program starts from its result or error. -/
theorem runPaced_attempt_bind (p : Prog σ ε α) (g : Except ε α → Prog σ ε β)
    (pace : List (τ × Bool))
    (s : σ) : ∃ rest, (p.attempt >>= g).runPaced wait pace s =
      (g (p.runPaced wait pace s).1).runPaced wait rest (p.runPaced wait pace s).2 := by
  have hattempt := @runPaced_attempt σ ε α τ wait p pace s
  rcases runPaced_bind p.attempt g pace s with ⟨e, t, hp, -⟩ | ⟨r, t, rest, hp, hgo⟩
  · cases (Prod.mk.inj (hattempt.symm.trans hp)).1
  · obtain ⟨hr, rfl⟩ := Prod.mk.inj (hattempt.symm.trans hp)
    obtain rfl := Except.ok.inj hr
    exact ⟨rest, hgo⟩

/-- A program whose result or error is turned into another. -/
theorem runPaced_attempt_ofExcept (p : Prog σ ε α) (h : Except ε α → Except ε β)
    (pace : List (τ × Bool)) (s : σ) :
      (p.attempt >>= fun r => ofExcept (h r)).runPaced wait pace s =
      (h (p.runPaced wait pace s).1, (p.runPaced wait pace s).2) := by
  obtain ⟨rest, hrun⟩ := runPaced_attempt_bind p (fun r => ofExcept (h r)) pace s
  rw [hrun, runPaced_ofExcept]

/-! ### Relations along a run -/

/-- A relation between stores that waiting follows, and any number of steps that follow it. -/
structure Drifts (wait : τ → σ → σ) (P : σ → σ → Prop) : Prop where
  refl : ∀ s, P s s
  trans : ∀ {s t u}, P s t → P t u → P s u
  waits : ∀ d s, P s (wait d s)

theorem Drifts.of_inv {I : σ → Prop} (h : ∀ d s, I s → I (wait d s)) :
    Drifts wait fun s t => I s → I t :=
  ⟨fun _ => id, fun h h' => h' ∘ h, h⟩

variable {P : σ → σ → Prop} {p : Prog σ ε α} {g : α → Prog σ ε β} {pace : List (τ × Bool)} {s t : σ}

theorem Drifts.waited (hP : Drifts wait P) (h : Waited wait s t) : P s t := by
  rcases h with rfl | ⟨d, rfl⟩
  · exact hP.refl _
  · exact hP.waits d s

/-- A run of a program all of whose calls follow the relation. -/
theorem Each.runPaced (hp : p.Each P) (hP : Drifts wait P) (pace : List (τ × Bool)) (s : σ) :
    P s (p.runPaced wait pace s).2 := by
  induction p generalizing pace s with
  | ret a => exact hP.refl s
  | fail e => exact hP.refl s
  | call f o k ih =>
    cases pace with
    | nil => exact hP.trans (hp.1 s) (ih _ (hp.2 _) _ _)
    | cons entry pace =>
      obtain ⟨d, bad⟩ := entry
      have hcall : P (wait d s) (outcome f o bad (wait d s)).2 := by
        unfold outcome
        split
        · exact hP.refl _
        · exact hp.1 _
      exact hP.trans (hP.trans (hP.waits d s) hcall) (ih _ (hp.2 _) _ _)

/-- What is left of a program after its first part. -/
theorem Each.rest {a : α} (h : (p >>= g).Each P) (hrun : p.runPaced wait pace s = (.ok a, t)) :
    (g a).Each P := by
  induction p generalizing pace s with
  | ret a' =>
    obtain rfl := Except.ok.inj (Prod.mk.inj hrun).1
    exact h
  | fail e => cases (Prod.mk.inj hrun).1
  | call f o k ih =>
    cases pace with
    | nil => exact ih _ (h.2 _) hrun
    | cons entry pace => exact ih _ (h.2 _) hrun

/-- A sequence whose first part follows the relation stops there or goes on from a related store. -/
theorem Each.runPaced_bind (hp : p.Each P) (hP : Drifts wait P) (g : α → Prog σ ε β)
    (pace : List (τ × Bool)) (s : σ) :
    P s ((p >>= g).runPaced wait pace s).2 ∧ (∃ e, ((p >>= g).runPaced wait pace s).1 = .error e) ∨
    ∃ a u rest, P s u ∧ p.runPaced wait pace s = (.ok a, u) ∧
      (p >>= g).runPaced wait pace s = (g a).runPaced wait rest u := by
  have hmoved := hp.runPaced hP pace s
  rcases Prog.runPaced_bind p g pace s with ⟨e, u, hrun, hstop⟩ | ⟨a, u, rest, hrun, hgo⟩
  · rw [hrun] at hmoved
    rw [hstop]
    exact .inl ⟨hmoved, e, rfl⟩
  · rw [hrun] at hmoved
    exact .inr ⟨a, u, rest, hmoved, hrun, hgo⟩

/-- A sequence that has a result, and of whose first part only the calls matter. -/
theorem Each.ok_of_runPaced_bind {b : β} (hp : p.Each P) (hP : Drifts wait P)
    (h : (p >>= g).runPaced wait pace s = (.ok b, t)) :
    ∃ a u rest, P s u ∧ (g a).runPaced wait rest u = (.ok b, t) := by
  rcases hp.runPaced_bind hP g pace s with ⟨-, e, he⟩ | ⟨a, u, rest, hmoved, -, hgo⟩
  · rw [h] at he
    cases he
  · exact ⟨a, u, rest, hmoved, hgo ▸ h⟩

end Prog

/-! ### At most one occurrence -/

section Hits

variable {σ κ : Type} {hit : κ → σ → Bool} {next : κ → σ → σ}

/-- The number of steps of a run at which `hit` says so. -/
def hits (hit : κ → σ → Bool) (next : κ → σ → σ) : List κ → σ → ℕ
  | [], _ => 0
  | x :: xs, s => (hit x s).toNat + hits hit next xs (next x s)

/-- The state after a run. -/
def after (next : κ → σ → σ) : List κ → σ → σ
  | [], s => s
  | x :: xs, s => after next xs (next x s)

theorem after_append (xs ys : List κ) (s : σ) :
    after next (xs ++ ys) s = after next ys (after next xs s) := by
  induction xs generalizing s with
  | nil => rfl
  | cons x xs ih => exact ih _

/-- At most one hit, if the first one leaves a mark `spent` that every step keeps and that rules a
hit out. All of this may rest on a condition `early` that the run starts in and keeps, and on a
condition `late` that it ends in and that held all along if it holds at the end. -/
theorem hits_le_one (early late spent : σ → Prop) (hearly : ∀ x s, early s → early (next x s))
    (hlate : ∀ x s, late (next x s) → late s)
    (hfirst : ∀ x s, early s → late (next x s) → hit x s = true → spent (next x s))
    (hkeep : ∀ x s, spent s → spent (next x s))
    (hlast : ∀ x s, early s → late (next x s) → spent s → hit x s = false) (xs : List κ) (s : σ)
    (hs : early s) (hend : late (after next xs s)) : hits hit next xs s ≤ 1 := by
  have hback : ∀ xs s, late (after next xs s) → late s := by
    intro xs
    induction xs with
    | nil => exact fun s h => h
    | cons x xs ih => exact fun s h => hlate x s (ih _ h)
  have hnone : ∀ xs s, early s → late (after next xs s) → spent s → hits hit next xs s = 0 := by
    intro xs
    induction xs with
    | nil => exact fun s _ _ _ => rfl
    | cons x xs ih =>
      intro s hs hend hspent
      rw [hits, hlast x s hs (hback _ _ hend) hspent, ih _ (hearly x s hs) hend (hkeep x s hspent)]
      rfl
  induction xs generalizing s with
  | nil => exact Nat.zero_le 1
  | cons x xs ih =>
    cases hx : hit x s with
    | true =>
      rw [hits, hx, hnone xs _ (hearly x s hs) hend (hfirst x s hs (hback _ _ hend) hx)]
      decide
    | false =>
      rw [hits, hx, Bool.toNat_false, Nat.zero_add]
      exact ih _ (hearly x s hs) hend

end Hits

end Interleave
