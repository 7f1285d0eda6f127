import Mathlib.Data.List.Induction
import AuthServer.Text.Fields

/-!
# Lexical path cleaning

The shortest path name equivalent to a given one, by its text alone: elements are what stands
between slashes, an empty element and `.` go, and `..` goes together with the element before it. At
the start of a rooted path `..` just goes.

Cleaning can move an element to the front that stood far behind it. `getLast?_kept_iff` says of
which element that is true, on the elements of the path as it was given: those before it cancel
out, and those after it never reach back to it.

## Main definitions

* `Text.clean`: the cleaned path.
* `Text.depth`: how many elements of a rooted path are left, counted without keeping them.
* `Text.ComesFirst`: the element that cleaning leaves at the front of a rooted path.
-/

namespace Text

/-- The elements of a path: what stands between its slashes. -/
def elements (path : List UInt8) : List (List UInt8) := path.splitOnP (· == 47)

/-- The element `..`. -/
def dotDot : List UInt8 := [46, 46]

/-- The elements kept so far, last one first, after `..`. -/
def ascend (rooted : Bool) : List (List UInt8) → List (List UInt8)
  | [] => if rooted then [] else [dotDot]
  | last :: rest => if last = dotDot then dotDot :: last :: rest else rest

/-- The elements kept so far, last one first, after one more element. -/
def keep (rooted : Bool) (kept : List (List UInt8)) (e : List UInt8) : List (List UInt8) :=
  if e = [] ∨ e = [46] then kept else if e = dotDot then ascend rooted kept else e :: kept

def clean (path : List UInt8) : List UInt8 :=
  let rooted := path.head? == some 47
  let body := [47].intercalate ((elements path).foldl (keep rooted) []).reverse
  if rooted then 47 :: body else if body = [] then [46] else body

/-- An element that stands for itself. -/
def Ordinary (e : List UInt8) : Prop := e ≠ [] ∧ e ≠ [46] ∧ e ≠ dotDot

/-- How deep one more element leads, from depth `n`. -/
def level (n : ℕ) (e : List UInt8) : ℕ :=
  if e = [] ∨ e = [46] then n else if e = dotDot then n - 1 else n + 1

/-- How deep the elements lead, from depth `n`. -/
def depth (n : ℕ) (es : List (List UInt8)) : ℕ := es.foldl level n

/-- The elements before `e` cancel out, and those after it never reach back to it. -/
def ComesFirst (e : List UInt8) (es : List (List UInt8)) : Prop :=
  ∃ before after, es = before ++ e :: after ∧ depth 0 before = 0 ∧
    ∀ some, some <+: after → 0 < depth 1 some

variable {e : List UInt8} {es kept : List (List UInt8)}

@[simp] theorem depth_nil (n : ℕ) : depth n [] = n := rfl

@[simp] theorem depth_append (n : ℕ) (es fs : List (List UInt8)) :
    depth n (es ++ fs) = depth (depth n es) fs := List.foldl_append

@[simp] theorem depth_cons (n : ℕ) : depth n (e :: es) = depth (level n e) es := rfl

theorem level_of_ordinary (h : Ordinary e) (n : ℕ) : level n e = n + 1 := by
  simp [level, h.1, h.2.1, h.2.2]

/-- What one more element does to the kept elements of a rooted path. -/
theorem keep_cases (kept : List (List UInt8)) (e : List UInt8) (h : dotDot ∉ kept) :
    (keep true kept e = kept ∧ ∀ n, level n e = n) ∨
    (keep true kept e = kept.tail ∧ ∀ n, level n e = n - 1) ∨
    (keep true kept e = e :: kept ∧ Ordinary e) := by
  by_cases hskip : e = [] ∨ e = [46]
  · exact .inl ⟨if_pos hskip, fun n => if_pos hskip⟩
  by_cases hup : e = dotDot
  · refine .inr (.inl ⟨?_, fun n => by rw [level, if_neg hskip, if_pos hup]⟩)
    rw [keep, if_neg hskip, if_pos hup]
    cases kept with
    | nil => rfl
    | cons last rest => exact if_neg fun hlast => h (by simp [hlast])
  · rw [not_or] at hskip
    refine .inr (.inr ⟨?_, hskip.1, hskip.2, hup⟩)
    rw [keep, if_neg (not_or.mpr hskip), if_neg hup]

theorem dotDot_notMem_keep (h : dotDot ∉ kept) : dotDot ∉ keep true kept e := by
  rcases keep_cases kept e h with ⟨heq, -⟩ | ⟨heq, -⟩ | ⟨heq, hord⟩
  · rwa [heq]
  · rw [heq]
    exact fun hmem => h (List.mem_of_mem_tail hmem)
  · rw [heq]
    simp [h, hord.2.2.symm]

theorem dotDot_notMem_kept (es : List (List UInt8)) (h : dotDot ∉ kept) :
    dotDot ∉ es.foldl (keep true) kept := by
  induction es generalizing kept with
  | nil => exact h
  | cons e es ih => exact ih (dotDot_notMem_keep h)

theorem length_kept (es : List (List UInt8)) (h : dotDot ∉ kept) :
    (es.foldl (keep true) kept).length = depth kept.length es := by
  induction es generalizing kept with
  | nil => rfl
  | cons e es ih =>
    rw [List.foldl_cons, ih (dotDot_notMem_keep h), depth_cons]
    rcases keep_cases kept e h with ⟨heq, hlevel⟩ | ⟨heq, hlevel⟩ | ⟨heq, hord⟩
    · rw [heq, hlevel]
    · rw [heq, hlevel, List.length_tail]
    · rw [heq, level_of_ordinary hord, List.length_cons]

theorem ordinary_of_mem_kept (hdots : dotDot ∉ kept)
    (hkept : ∀ x ∈ kept, Ordinary x) : ∀ x ∈ es.foldl (keep true) kept, Ordinary x := by
  induction es generalizing kept with
  | nil => exact hkept
  | cons e es ih =>
    refine ih (dotDot_notMem_keep hdots) ?_
    rcases keep_cases kept e hdots with ⟨heq, -⟩ | ⟨heq, -⟩ | ⟨heq, hord⟩
    · rwa [heq]
    · rw [heq]
      exact fun x hx => hkept x (List.mem_of_mem_tail hx)
    · rw [heq]
      exact List.forall_mem_cons.mpr ⟨hord, hkept⟩

theorem mem_of_mem_kept (hdots : dotDot ∉ kept) {x : List UInt8}
    (hx : x ∈ es.foldl (keep true) kept) : x ∈ kept ∨ x ∈ es := by
  induction es generalizing kept with
  | nil => exact .inl hx
  | cons e es ih =>
    rcases ih (dotDot_notMem_keep hdots) hx with hx | hx
    · rcases keep_cases kept e hdots with ⟨heq, -⟩ | ⟨heq, -⟩ | ⟨heq, -⟩
      · exact .inl (heq ▸ hx)
      · exact .inl (List.mem_of_mem_tail (heq ▸ hx))
      · rcases List.mem_cons.mp (heq ▸ hx) with rfl | hx
        · simp
        · exact .inl hx
    · exact .inr (List.mem_cons_of_mem e hx)

/-- An element at the bottom stays there while the depth stays positive. -/
theorem getLast?_kept_of_depth {after top : List (List UInt8)} (hdots : dotDot ∉ top ++ [e])
    (h : ∀ some, some <+: after → 0 < depth (top.length + 1) some) :
    (after.foldl (keep true) (top ++ [e])).getLast? = some e := by
  induction after generalizing top with
  | nil => simp
  | cons x after ih =>
    have htail : ∀ n, level (top.length + 1) x = n → ∀ some, some <+: after → 0 < depth n some := by
      rintro n rfl some hsome
      exact h (x :: some) (by simpa using hsome)
    have hdots' := dotDot_notMem_keep (e := x) hdots
    rw [List.foldl_cons]
    rcases keep_cases (top ++ [e]) x hdots with ⟨heq, hlevel⟩ | ⟨heq, hlevel⟩ | ⟨heq, hord⟩
    · rw [heq]
      exact ih hdots (htail _ (hlevel _))
    · rw [heq] at hdots' ⊢
      cases top with
      | nil =>
        have hzero := htail 0 (by simp [hlevel]) [] (by simp)
        simp at hzero
      | cons y top => exact ih (by simpa using hdots') (htail _ (by simp [hlevel]))
    · rw [heq, ← List.cons_append] at hdots' ⊢
      exact ih hdots' (htail _ (level_of_ordinary hord _))

/-- The element that a rooted path begins with after cleaning. -/
theorem getLast?_kept_iff : (es.foldl (keep true) []).getLast? = some e ↔ Ordinary e ∧
    ComesFirst e es := by
  have hnone : dotDot ∉ ([] : List (List UInt8)) := by simp
  constructor
  · intro h
    refine ⟨ordinary_of_mem_kept hnone (by simp) e (List.mem_of_getLast? h), ?_⟩
    induction es using List.reverseRecOn with
    | nil => simp at h
    | append_singleton es x ih =>
      have hdots := dotDot_notMem_kept es hnone
      have hlength := length_kept es hnone
      rw [List.foldl_append, List.foldl_cons, List.foldl_nil] at h
      -- the element was at the bottom before, and `x` leaves something above or at it
      have hextend : (es.foldl (keep true) []).getLast? = some e →
          0 < level (depth 0 es) x → ComesFirst e (es ++ [x]) := by
        intro hlast hpos
        have hord := ordinary_of_mem_kept hnone (by simp) e (List.mem_of_getLast? hlast)
        obtain ⟨before, after, rfl, hbefore, hafter⟩ := ih hlast
        refine ⟨before, after ++ [x], by simp, hbefore, fun some hsome => ?_⟩
        rcases List.prefix_concat_iff.mp hsome with rfl | hsome
        · rw [depth_append, hbefore, depth_cons, level_of_ordinary hord] at hpos
          simpa using hpos
        · exact hafter some hsome
      rw [List.length_nil] at hlength
      rcases keep_cases _ x hdots with ⟨heq, hlevel⟩ | ⟨heq, hlevel⟩ | ⟨heq, hord⟩
      · rw [heq] at h
        refine hextend h ?_
        rw [hlevel, ← hlength]
        exact List.length_pos_of_mem (List.mem_of_getLast? h)
      · rw [heq] at h
        rcases hkept : es.foldl (keep true) [] with _ | ⟨y, _ | ⟨z, rest⟩⟩
        · simp [hkept] at h
        · simp [hkept] at h
        · rw [hkept] at h hlength
          refine hextend ?_ ?_
          · rwa [hkept, List.getLast?_cons_cons]
          · rw [hlevel, ← hlength]
            simp
      · rw [heq] at h
        rcases hkept : es.foldl (keep true) [] with _ | ⟨y, rest⟩
        · rw [hkept] at h hlength
          obtain rfl : x = e := by simpa using h
          refine ⟨es, [], rfl, hlength.symm, fun some hsome => ?_⟩
          simp [List.prefix_nil.mp hsome]
        · rw [hkept, List.getLast?_cons_cons] at h
          exact hextend (hkept ▸ h) (by rw [level_of_ordinary hord]; omega)
  · rintro ⟨hord, before, after, rfl, hbefore, hafter⟩
    have hlength := length_kept before hnone
    rw [List.length_nil, hbefore, List.length_eq_zero_iff] at hlength
    have hkeep : keep true [] e = [e] := by
      rw [keep, if_neg (not_or.mpr ⟨hord.1, hord.2.1⟩), if_neg hord.2.2]
    rw [List.foldl_append, hlength, List.foldl_cons, hkeep]
    have hbottom : (after.foldl (keep true) ([] ++ [e])).getLast? = some e :=
      getLast?_kept_of_depth (by simpa using hord.2.2.symm) hafter
    exact hbottom

/-! ### The text of a cleaned path -/

variable {path : List UInt8}

theorem notMem_of_mem_elements (h : e ∈ elements path) : 47 ∉ e := by
  intro hmem
  have hsep := eq_false_of_mem_splitOnP h 47 hmem
  cases hsep

variable {c : UInt8}

theorem mem_of_mem_elements (h : e ∈ elements path) (hc : c ∈ e) : c ∈ path := by
  rw [elements] at h
  induction path generalizing e with
  | nil =>
    obtain rfl : e = [] := by simpa using h
    exact absurd hc List.not_mem_nil
  | cons x path ih =>
    rw [List.splitOnP_cons_eq_if_modifyHead] at h
    split at h
    · rcases List.mem_cons.mp h with rfl | h
      · exact absurd hc List.not_mem_nil
      · exact List.mem_cons_of_mem x (ih h hc)
    · obtain ⟨u, rest, hu⟩ := List.exists_cons_of_ne_nil (List.splitOnP_ne_nil (· == 47) path)
      rw [hu] at h ih
      rcases List.mem_cons.mp h with rfl | h
      · rcases List.mem_cons.mp hc with rfl | hc
        · exact List.mem_cons_self
        · exact List.mem_cons_of_mem x (ih List.mem_cons_self hc)
      · exact List.mem_cons_of_mem x (ih (List.mem_cons_of_mem u h) hc)

theorem mem_intercalate_slash {l : List (List UInt8)} (h : c ∈ [47].intercalate l) :
    c = 47 ∨ ∃ e ∈ l, c ∈ e := by
  induction l with
  | nil => simp at h
  | cons e l ih =>
    cases l with
    | nil => exact .inr ⟨e, by simp, by simpa using h⟩
    | cons e' l =>
      rw [List.intercalate_cons_cons] at h
      simp only [List.mem_append, List.mem_singleton] at h
      rcases h with (h | h) | h
      · exact .inr ⟨e, by simp, h⟩
      · exact .inl h
      · rcases ih h with h | ⟨x, hx, hc⟩
        · exact .inl h
        · exact .inr ⟨x, List.mem_cons_of_mem e hx, hc⟩

theorem head?_intercalate_slash (l : List (List UInt8)) (h : ∀ e ∈ l, e ≠ []) :
    ([47].intercalate l).head? = l.head?.bind List.head? := by
  rcases l with _ | ⟨e, _ | ⟨e', l⟩⟩
  · rfl
  · simp
  · rw [List.intercalate_cons_cons, List.append_assoc,
      List.head?_append_of_ne_nil _ (h e (by simp))]
    rfl

theorem clean_of_rooted (h : path.head? = some 47) :
    clean path = 47 :: [47].intercalate ((elements path).foldl (keep true) []).reverse := by
  simp [clean, h]

theorem mem_of_mem_clean (h : path.head? = some 47) (hc : c ∈ clean path) : c ∈ path := by
  have hslash : (47 : UInt8) ∈ path := List.mem_of_head? h
  rw [clean_of_rooted h] at hc
  rcases List.mem_cons.mp hc with rfl | hc
  · exact hslash
  · rcases mem_intercalate_slash hc with rfl | ⟨e, he, hc⟩
    · exact hslash
    · rcases mem_of_mem_kept (by simp) (List.mem_reverse.mp he) with he | he
      · exact absurd he List.not_mem_nil
      · exact mem_of_mem_elements he hc

/-- What comes right after the slash of a cleaned rooted path: the first byte of the element that
comes first, if there is one. -/
theorem head?_tail_clean (h : path.head? = some 47) :
    (clean path).tail.head? = some c ↔
      ∃ e, e.head? = some c ∧ Ordinary e ∧ ComesFirst e (elements path) := by
  have hord : ∀ e ∈ ((elements path).foldl (keep true) []).reverse, e ≠ [] := fun e he =>
    (ordinary_of_mem_kept (by simp) (by simp) e (List.mem_reverse.mp he)).1
  rw [clean_of_rooted h, List.tail_cons, head?_intercalate_slash _ hord, List.head?_reverse,
    Option.bind_eq_some_iff]
  refine exists_congr fun e => ?_
  rw [getLast?_kept_iff, and_comm]

/-- Two slashes never begin a cleaned rooted path. -/
theorem head?_tail_clean_ne (h : path.head? = some 47) : (clean path).tail.head? ≠ some 47 := by
  intro hc
  obtain ⟨e, he, -, before, after, hes, -⟩ := (head?_tail_clean h).mp hc
  have hmem : e ∈ elements path := by simp [hes]
  exact notMem_of_mem_elements hmem (List.mem_of_head? he)

end Text
