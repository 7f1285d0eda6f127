import Mathlib.Data.Finset.Card
import Mathlib.Data.List.Basic
import Mathlib.Logic.Function.Iterate

/-!
# Recursive queries over a finite table of links

A recursive query starts from a list of roots and follows the links of a table until nothing new
turns up. `Lineage.closure` computes it by following every link once per round, for as many rounds
as there are links, and `Lineage.Reach` says what it is for: the least set that holds the roots and
is closed under the links. `mem_closure` identifies the two. The number of rounds is enough because
a round that adds nothing is a fixed point and every other round fires a link that had not fired.

A database evaluates such a query with a working table: the rows that the last round added. With
`UNION` a round adds the children of the working table that the result does not have yet, and the
evaluation is over when it adds none. `Lineage.evaluate` does that. -/

namespace Lineage

variable {κ : Type} [DecidableEq κ] {links links' : List (κ × κ)} {roots roots' : List κ}

/-- The links, as pairs of parent and child, that start in the list. -/
def firing (links : List (κ × κ)) (l : List κ) : List (κ × κ) :=
  links.filter fun e => decide (e.1 ∈ l)

/-- One round: add the children of every link that starts in the list. -/
def expand (links : List (κ × κ)) (l : List κ) : List κ :=
  l ++ (firing links l).map Prod.snd

/-- The result of the recursive query. -/
def closure (links : List (κ × κ)) (roots : List κ) : List κ :=
  (expand links)^[links.length] roots

/-- What the recursive query is for: the roots and everything linked below them. -/
inductive Reach (links : List (κ × κ)) (roots : List κ) : κ → Prop
  | root {k : κ} : k ∈ roots → Reach links roots k
  | child {p k : κ} : Reach links roots p → (p, k) ∈ links → Reach links roots k

/-- Following a link from the list stays in the list. -/
def Closed (links : List (κ × κ)) (l : List κ) : Prop :=
  ∀ e ∈ links, e.1 ∈ l → e.2 ∈ l

/-! ### The computation -/

variable {l : List κ}

theorem mem_firing {e : κ × κ} : e ∈ firing links l ↔ e ∈ links ∧ e.1 ∈ l := by
  simp [firing]

variable {k : κ}

theorem mem_expand : k ∈ expand links l ↔ k ∈ l ∨ ∃ p, (p, k) ∈ links ∧ p ∈ l := by
  simp [expand, mem_firing]

theorem Closed.expand (h : Closed links l) : Closed links (expand links l) := by
  have hmem : ∀ k, k ∈ Lineage.expand links l → k ∈ l := by
    intro k hk
    rcases mem_expand.mp hk with hk | ⟨p, hpk, hp⟩
    · exact hk
    · exact h _ hpk hp
  intro e he hk
  exact mem_expand.mpr (.inl (h e he (hmem _ hk)))

theorem Closed.iterate (h : Closed links l) (n : ℕ) :
    Closed links ((Lineage.expand links)^[n] l) := by
  induction n with
  | zero => exact h
  | succ n ih => rw [Function.iterate_succ_apply']; exact ih.expand

theorem length_firing_lt (h : ¬ Closed links (expand links l)) :
    (firing links l).length < (firing links (expand links l)).length := by
  simp only [Closed, not_forall] at h
  obtain ⟨e, he, hmem, hnot⟩ := h
  have hold : e.1 ∉ l := fun h0 => hnot (mem_expand.mpr (.inr ⟨e.1, he, h0⟩))
  have hsub : (firing links l).Sublist (firing links (expand links l)) :=
    List.monotone_filter_right links fun x hx => by
      simpa using mem_expand.mpr (.inl (by simpa using hx))
  refine Nat.lt_of_le_of_ne hsub.length_le fun hlen => ?_
  have heq := hsub.eq_of_length hlen
  have : e ∈ firing links l := heq ▸ mem_firing.mpr ⟨he, hmem⟩
  exact hold (mem_firing.mp this).2

/-- After `n` rounds either some round was closed or more than `n` links have fired. -/
theorem exists_closed_or_lt_length (links : List (κ × κ)) (roots : List κ) (n : ℕ) :
    (∃ m ≤ n, Closed links ((expand links)^[m] roots)) ∨
      n < (firing links ((expand links)^[n] roots)).length := by
  induction n with
  | zero =>
    by_cases h : Closed links roots
    · exact .inl ⟨0, Nat.le_refl 0, h⟩
    · simp only [Closed, not_forall] at h
      obtain ⟨e, he, hmem, -⟩ := h
      exact .inr (List.length_pos_of_mem (mem_firing.mpr ⟨he, hmem⟩))
  | succ n ih =>
    rcases ih with ⟨m, hm, hcl⟩ | hlt
    · exact .inl ⟨m, by omega, hcl⟩
    · by_cases h : Closed links ((expand links)^[n + 1] roots)
      · exact .inl ⟨n + 1, Nat.le_refl _, h⟩
      · rw [Function.iterate_succ_apply'] at h ⊢
        have := length_firing_lt h
        exact .inr (by omega)

theorem closed_closure (links : List (κ × κ)) (roots : List κ) :
    Closed links (closure links roots) := by
  rcases exists_closed_or_lt_length links roots links.length with ⟨m, hm, hcl⟩ | hlt
  · obtain ⟨d, hd⟩ := Nat.exists_eq_add_of_le hm
    have := hcl.iterate d
    rwa [← Function.iterate_add_apply, Nat.add_comm, ← hd] at this
  · exact absurd (List.length_filter_le _ links) (by simpa [firing] using hlt)

theorem mem_iterate_expand_of_mem (hk : k ∈ roots) (n : ℕ) : k ∈ (expand links)^[n] roots := by
  induction n with
  | zero => exact hk
  | succ n ih => rw [Function.iterate_succ_apply']; exact mem_expand.mpr (.inl ih)

theorem reach_of_mem_iterate (n : ℕ) (hk : k ∈ (expand links)^[n] roots) : Reach links roots k := by
  induction n generalizing k with
  | zero => exact .root hk
  | succ n ih =>
    rw [Function.iterate_succ_apply'] at hk
    rcases mem_expand.mp hk with hk | ⟨p, hpk, hp⟩
    · exact ih hk
    · exact .child (ih hp) hpk

/-- **The query computes reachability.** -/
theorem mem_closure : k ∈ closure links roots ↔ Reach links roots k := by
  refine ⟨reach_of_mem_iterate links.length, fun h => ?_⟩
  induction h with
  | root hk => exact mem_iterate_expand_of_mem hk _
  | child _ hpk ih => exact closed_closure links roots _ hpk ih

/-! ### Evaluation with a working table -/

/-- The rows that a round adds: the children of the working table that the result does not have,
each of them once. -/
def fresh (links : List (κ × κ)) (working result : List κ) : List κ :=
  ((firing links working).map Prod.snd).dedup.filter fun k => decide (k ∉ result)

/-- The evaluation of a recursive query with `UNION`, for at most a number of rounds. -/
def evaluate (links : List (κ × κ)) : ℕ → List κ → List κ → Option (List κ)
  | _, [], result => some result
  | 0, _ :: _, _ => none
  | n + 1, p :: working, result =>
    evaluate links n (fresh links (p :: working) result)
      (result ++ fresh links (p :: working) result)

variable {working result rows : List κ} {n : ℕ}

theorem mem_fresh : k ∈ fresh links working result ↔
    (∃ p, (p, k) ∈ links ∧ p ∈ working) ∧ k ∉ result := by
  simp [fresh, mem_firing]

/-- What holds between two rounds. -/
structure Evaluating (links : List (κ × κ)) (roots working result : List κ) : Prop where
  roots_subset : ∀ k ∈ roots, k ∈ result
  working_subset : ∀ k ∈ working, k ∈ result
  reach : ∀ k ∈ result, Reach links roots k
  /-- The children of everything but the working table are there. -/
  done : ∀ e ∈ links, e.1 ∈ result → e.1 ∉ working → e.2 ∈ result
  nodup : result.Nodup

theorem Evaluating.round (h : Evaluating links roots working result) :
    Evaluating links roots (fresh links working result) (result ++ fresh links working result) where
  roots_subset k hk := List.mem_append_left _ (h.roots_subset k hk)
  working_subset k hk := List.mem_append_right _ hk
  reach k hk := by
    rcases List.mem_append.mp hk with hk | hk
    · exact h.reach k hk
    · obtain ⟨⟨p, hpk, hp⟩, -⟩ := mem_fresh.mp hk
      exact .child (h.reach p (h.working_subset p hp)) hpk
  done e he hmem hnot := by
    have hold : e.1 ∈ result := (List.mem_append.mp hmem).resolve_right hnot
    by_cases hworking : e.1 ∈ working
    · by_cases hchild : e.2 ∈ result
      · exact List.mem_append_left _ hchild
      · exact List.mem_append_right _ (mem_fresh.mpr ⟨⟨e.1, he, hworking⟩, hchild⟩)
    · exact List.mem_append_left _ (h.done e he hold hworking)
  nodup := by
    refine h.nodup.append ((List.nodup_dedup _).filter _) fun k hk hfresh => ?_
    exact (mem_fresh.mp hfresh).2 hk

theorem Evaluating.init (links : List (κ × κ)) (roots : List κ) :
    Evaluating links roots roots.dedup roots.dedup where
  roots_subset _ hk := List.mem_dedup.mpr hk
  working_subset _ hk := hk
  reach _ hk := .root (List.mem_dedup.mp hk)
  done _ _ hmem hnot := absurd hmem hnot
  nodup := List.nodup_dedup _

theorem Evaluating.final (h : Evaluating links roots [] result)
    (hend : evaluate links n [] result = some rows) :
    rows.Nodup ∧ ∀ k, k ∈ rows ↔ Reach links roots k := by
  obtain rfl : result = rows := by cases n <;> exact Option.some.inj hend
  refine ⟨h.nodup, fun k => ⟨h.reach k, fun hreach => ?_⟩⟩
  induction hreach with
  | root hk => exact h.roots_subset _ hk
  | child _ hpk ih => exact h.done _ hpk ih List.not_mem_nil

theorem Evaluating.mem_iff (h : Evaluating links roots working result)
    (hend : evaluate links n working result = some rows) : rows.Nodup ∧ ∀ k, k ∈ rows ↔
      Reach links roots k := by
  induction n generalizing working result with
  | zero =>
    cases working with
    | nil => exact h.final hend
    | cons p working => cases hend
  | succ n ih =>
    cases working with
    | nil => exact h.final hend
    | cons p working => exact ih h.round hend

/-- The children that the result does not have yet. -/
def missing (links : List (κ × κ)) (result : List κ) : ℕ :=
  ((links.map Prod.snd).toFinset.filter (· ∉ result)).card

/-- A round that adds rows leaves fewer of them missing. -/
theorem missing_fresh_lt (hne : fresh links working result ≠ []) :
    missing links (result ++ fresh links working result) < missing links result := by
  obtain ⟨k, hk⟩ := List.exists_mem_of_ne_nil _ hne
  obtain ⟨⟨p, hpk, -⟩, hnot⟩ := mem_fresh.mp hk
  refine Finset.card_lt_card (Finset.ssubset_iff_of_subset ?_ |>.mpr ⟨k, ?_, ?_⟩)
  · intro x hx
    obtain ⟨hx, hout⟩ := Finset.mem_filter.mp hx
    exact Finset.mem_filter.mpr ⟨hx, fun hmem => hout (List.mem_append_left _ hmem)⟩
  · exact Finset.mem_filter.mpr ⟨List.mem_toFinset.mpr (List.mem_map.mpr ⟨(p, k), hpk, rfl⟩), hnot⟩
  · exact fun hmem => (Finset.mem_filter.mp hmem).2 (List.mem_append_right _ hk)

theorem evaluate_ne_none (hn : missing links result < n) :
    evaluate links n working result ≠ none := by
  induction n generalizing working result with
  | zero => omega
  | succ n ih =>
    cases working with
    | nil => exact Option.some_ne_none _
    | cons p working =>
      rw [evaluate]
      by_cases hnone : fresh links (p :: working) result = []
      · rw [hnone]
        cases n <;> exact Option.some_ne_none _
      · have hlt := missing_fresh_lt hnone
        exact ih (by omega)

/-- More rounds make no difference to an evaluation that has ended. -/
theorem evaluate_succ (h : evaluate links n working result = some rows) :
    evaluate links (n + 1) working result = some rows := by
  induction n generalizing working result with
  | zero =>
    cases working with
    | nil => exact h
    | cons p working => cases h
  | succ n ih =>
    cases working with
    | nil => exact h
    | cons p working => exact ih h

/-- **The evaluation ends with what can be reached**, each row once, however many more rounds it may
take. -/
theorem evaluate_eq (links : List (κ × κ)) (roots : List κ) :
    ∃ rows, (∀ n, links.length < n → evaluate links n roots.dedup roots.dedup = some rows) ∧
      rows.Nodup ∧ ∀ k, k ∈ rows ↔ Reach links roots k := by
  have hmissing : missing links roots.dedup < links.length + 1 := by
    have hle := (Finset.card_filter_le (links.map Prod.snd).toFinset (· ∉ roots.dedup)).trans
      (List.toFinset_card_le _)
    rw [List.length_map] at hle
    exact Nat.lt_succ_of_le hle
  obtain ⟨rows, hrows⟩ :=
    Option.ne_none_iff_exists'.mp (@evaluate_ne_none κ _ links roots.dedup roots.dedup _ hmissing)
  refine ⟨rows, fun n hn => ?_, (Evaluating.init links roots).mem_iff hrows⟩
  induction n, hn using Nat.le_induction with
  | base => exact hrows
  | succ n _ ih => exact evaluate_succ ih

end Lineage
