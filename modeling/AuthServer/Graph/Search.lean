import Mathlib.Data.Finset.Card
import Mathlib.Logic.Relation

/-!
# Searching a finite graph

A search from a start node for a goal, with a stack of nodes to look at and a list of the nodes seen
so far, in a graph that is given by the list of successors of each node. The goal is looked for
among the successors, so it is found if there is a way to it with at least one step.

`search_eq` says that the search finds the goal if and only if there is such a way, and
`search_ne_none` that it ends: every node is put on the stack at most once. -/

namespace Graph

variable {α : Type*} {goal start node : α} {out seen stack : List α} {found : List α × List α}
    {succ : α → List α}
  {n : ℕ}

/-! ### What a search knows -/

/-- What looking at the successors of a node leaves. -/
structure Scanned (goal : α) (out seen stack : List α) (found : List α × List α) : Prop where
  seen_subset : ∀ x ∈ seen, x ∈ found.1
  stack_subset : ∀ x ∈ stack, x ∈ found.2
  out_subset : ∀ x ∈ out, x ∈ found.1
  new : ∀ x ∈ found.1, x ∈ seen ∨ x ∈ found.2
  origin : ∀ x ∈ found.2, x ∈ stack ∨ x ∈ out
  avoids : goal ∉ out
  fresh : goal ∉ seen → goal ∉ found.1

/-- The nodes that have been looked at lead to nodes that have been seen, and none of them to the
goal. -/
def Explored (succ : α → List α) (goal : α) (seen stack : List α) : Prop :=
  ∀ x ∈ seen, x ∉ stack → goal ∉ succ x ∧ ∀ y ∈ succ x, y ∈ seen

theorem Explored.step (h : Explored succ goal seen (node :: stack))
    (hfound : Scanned goal (succ node) seen stack found) : Explored succ goal found.1 found.2 := by
  intro x hx hstack
  rcases hfound.new x hx with hold | hnew
  · by_cases hnode : x = node
    · subst hnode
      exact ⟨hfound.avoids, hfound.out_subset⟩
    · have hdone : x ∉ node :: stack :=
        List.not_mem_cons_of_ne_of_not_mem hnode fun hmem => hstack (hfound.stack_subset x hmem)
      obtain ⟨hgoal, hclosed⟩ := h x hold hdone
      exact ⟨hgoal, fun y hy => hfound.seen_subset y (hclosed y hy)⟩
  · exact absurd hnew hstack

theorem Explored.not_reaches (h : Explored succ goal seen []) (hstart : start ∈ seen) :
    ¬Relation.TransGen (fun a b => b ∈ succ a) start goal := by
  intro hreach
  have hseen : ∀ x, Relation.ReflTransGen (fun a b => b ∈ succ a) start x → x ∈ seen := by
    intro x hx
    induction hx with
    | refl => exact hstart
    | tail _ hxy ih => exact (h _ ih List.not_mem_nil).2 _ hxy
  obtain ⟨x, hx, hgoal⟩ := Relation.TransGen.tail'_iff.mp hreach
  exact (h x (hseen x hx) List.not_mem_nil).1 hgoal

/-! ### The algorithm -/

section

variable [DecidableEq α]

/-- Look at the successors of a node: the new ones are marked and put on the stack; nothing is
returned if the goal is among them. -/
def scan (goal : α) : List α → List α → List α → Option (List α × List α)
  | [], seen, stack => some (seen, stack)
  | x :: rest, seen, stack =>
    if x = goal then none
    else if x ∈ seen then scan goal rest seen stack
    else scan goal rest (x :: seen) (x :: stack)

/-- Search for the goal, from the nodes on the stack on: whether it was found, if the given number
of nodes was enough to tell. -/
def search (succ : α → List α) (goal : α) : ℕ → List α → List α → Option Bool
  | _, _, [] => some false
  | 0, _, _ :: _ => none
  | n + 1, seen, node :: stack =>
    (scan goal (succ node) seen stack).elim (some true) fun found =>
      search succ goal n found.1 found.2

/-! ### One node -/

theorem scanned_of_scan (h : scan goal out seen stack = some found) :
    Scanned goal out seen stack found := by
  induction out generalizing seen stack with
  | nil =>
    obtain rfl := Option.some.inj h
    exact ⟨fun _ hx => hx, fun _ hx => hx, by simp, fun _ hx => .inl hx, fun _ hx =>
      .inl hx, by simp, id⟩
  | cons y rest ih =>
    unfold scan at h
    split at h
    · cases h
    · next hne =>
      split at h
      · next hseen =>
        have hrest := ih h
        exact { hrest with
          out_subset := List.forall_mem_cons.mpr ⟨hrest.seen_subset _ hseen, hrest.out_subset⟩
          origin := fun x hx => (hrest.origin x hx).imp_right (List.mem_cons_of_mem _)
          avoids := List.not_mem_cons_of_ne_of_not_mem (Ne.symm hne) hrest.avoids }
      · have hrest := ih h
        refine ⟨fun x hx => hrest.seen_subset x (List.mem_cons_of_mem _ hx),
          fun x hx => hrest.stack_subset x (List.mem_cons_of_mem _ hx),
          List.forall_mem_cons.mpr ⟨hrest.seen_subset _ List.mem_cons_self, hrest.out_subset⟩,
          fun x hx => ?_, fun x hx => ?_, List.not_mem_cons_of_ne_of_not_mem
            (Ne.symm hne) hrest.avoids,
          fun hgoal => hrest.fresh (List.not_mem_cons_of_ne_of_not_mem (Ne.symm hne) hgoal)⟩
        · rcases hrest.new x hx with hx | hx
          · rcases List.mem_cons.mp hx with rfl | hx
            · exact .inr (hrest.stack_subset _ List.mem_cons_self)
            · exact .inl hx
          · exact .inr hx
        · rcases hrest.origin x hx with hx | hx
          · rcases List.mem_cons.mp hx with rfl | hx
            · exact .inr List.mem_cons_self
            · exact .inl hx
          · exact .inr (List.mem_cons_of_mem _ hx)

theorem mem_of_scan_eq_none (h : scan goal out seen stack = none) : goal ∈ out := by
  induction out generalizing seen stack with
  | nil => cases h
  | cons y rest ih =>
    unfold scan at h
    split at h
    · next heq => exact heq ▸ List.mem_cons_self
    · split at h <;> exact List.mem_cons_of_mem _ (ih h)

def pending (nodes : Finset α) (seen stack : List α) : ℕ :=
  stack.length + (nodes.filter (· ∉ seen)).card

theorem pending_of_scan {nodes : Finset α} (hout : ∀ x ∈ out, x ∈ nodes)
    (h : scan goal out seen stack = some found) : pending nodes found.1 found.2 =
      pending nodes seen stack := by
  induction out generalizing seen stack with
  | nil =>
    obtain rfl := Option.some.inj h
    rfl
  | cons y rest ih =>
    obtain ⟨hy, hrest⟩ := List.forall_mem_cons.mp hout
    unfold scan at h
    split at h
    · cases h
    · split at h
      · exact ih hrest h
      · next hnew =>
        rw [ih hrest h]
        have hfilter : nodes.filter (· ∉ y :: seen) = (nodes.filter (· ∉ seen)).erase y := by
          ext x
          simp only [Finset.mem_filter, Finset.mem_erase, List.mem_cons, not_or]
          tauto
        have hmem : y ∈ nodes.filter (· ∉ seen) := Finset.mem_filter.mpr ⟨hy, hnew⟩
        have hcard := Finset.card_erase_add_one hmem
        unfold pending
        rw [hfilter, List.length_cons]
        omega

/-! ### The search -/

theorem reaches_of_search (h : search succ goal n seen stack = some true) :
    ∃ a ∈ stack, Relation.TransGen (fun a b => b ∈ succ a) a goal := by
  induction n generalizing seen stack with
  | zero => cases stack <;> cases h
  | succ n ih =>
    cases stack with
    | nil => cases h
    | cons node stack =>
      rw [search] at h
      cases hscan : scan goal (succ node) seen stack with
      | none => exact ⟨node, List.mem_cons_self, .single (mem_of_scan_eq_none hscan)⟩
      | some found =>
        rw [hscan] at h
        obtain ⟨a, ha, hreach⟩ := ih h
        rcases (scanned_of_scan hscan).origin a ha with hstack | hout
        · exact ⟨a, List.mem_cons_of_mem _ hstack, hreach⟩
        · exact ⟨node, List.mem_cons_self, .head hout hreach⟩

theorem not_reaches_of_search (hexplored : Explored succ goal seen stack) (hstart : start ∈ seen)
    (h : search succ goal n seen stack = some false) :
      ¬Relation.TransGen (fun a b => b ∈ succ a) start goal := by
  induction n generalizing seen stack with
  | zero =>
    cases stack with
    | nil => exact hexplored.not_reaches hstart
    | cons node stack => cases h
  | succ n ih =>
    cases stack with
    | nil => exact hexplored.not_reaches hstart
    | cons node stack =>
      rw [search] at h
      cases hscan : scan goal (succ node) seen stack with
      | none =>
        rw [hscan] at h
        cases h
      | some found =>
        rw [hscan] at h
        have hfound := scanned_of_scan hscan
        exact ih (hexplored.step hfound) (hfound.seen_subset _ hstart) h

theorem search_ne_none {nodes : Finset α} (goal : α) (hsucc : ∀ a, ∀ b ∈ succ a, b ∈ nodes)
    (hn : pending nodes seen stack ≤ n) :
    search succ goal n seen stack ≠ none := by
  induction n generalizing seen stack with
  | zero =>
    cases stack with
    | nil => exact Option.some_ne_none _
    | cons node stack =>
      rw [pending, List.length_cons] at hn
      omega
  | succ n ih =>
    cases stack with
    | nil => exact Option.some_ne_none _
    | cons node stack =>
      rw [search]
      cases hscan : scan goal (succ node) seen stack with
      | none => exact Option.some_ne_none _
      | some found =>
        refine ih ?_
        rw [pending_of_scan (hsucc node) hscan]
        rw [pending, List.length_cons] at hn
        unfold pending
        omega

/-- **The search decides whether the goal can be reached**, given as many nodes as the graph has. -/
theorem search_eq {nodes : Finset α} (hsucc : ∀ a, ∀ b ∈ succ a, b ∈ nodes) (hn : nodes.card < n)
    (start goal : α) :
    (search succ goal n [start] [start] = some true ∧
      Relation.TransGen (fun a b => b ∈ succ a) start goal) ∨
      (search succ goal n [start] [start] = some false ∧
        ¬Relation.TransGen (fun a b => b ∈ succ a) start goal) := by
  have hpending : pending nodes [start] [start] ≤ n := by
    have hcard := Finset.card_filter_le nodes (· ∉ [start])
    rw [pending, List.length_singleton]
    omega
  have hends := search_ne_none goal hsucc hpending
  cases hverdict : search succ goal n [start] [start] with
  | none => exact absurd hverdict hends
  | some verdict =>
    cases verdict with
    | true =>
      obtain ⟨a, ha, hreach⟩ := reaches_of_search hverdict
      exact .inl ⟨rfl, List.mem_singleton.mp ha ▸ hreach⟩
    | false =>
      have hexplored : Explored succ goal [start] [start] := fun x hx hstack => absurd hx hstack
      exact .inr ⟨rfl, not_reaches_of_search hexplored List.mem_cons_self hverdict⟩

end

end Graph
