import Mathlib.Data.List.Basic

/-!
# White-space separated words

Splitting a string around its white space and joining words with a single blank, as the standard
library of the source language does it. Splitting undoes joining only for words that hold no white
space themselves: in general, joining a list and splitting the result splits each member
(`fields_join`), so a name with a blank in it comes back as its pieces and an all-blank name not at
all.

## Main definitions

* `Text.isSpace`: the Unicode white-space characters.
* `Text.fields`: the maximal runs of characters that are not white space, in order.
* `Text.trimSpace`: the string without the white space at its ends.
* `Text.join`: the words with one blank between neighbours.
* `Text.Word`: a non-empty string with no white space.
-/

namespace Text

/-- The characters with the Unicode white-space property. -/
def isSpace (c : Char) : Bool :=
  (9 ≤ c.toNat && c.toNat ≤ 13) || c.toNat == 0x20 || c.toNat == 0x85 || c.toNat == 0xA0 ||
    c.toNat == 0x1680 || (0x2000 ≤ c.toNat && c.toNat ≤ 0x200A) || c.toNat == 0x2028 ||
    c.toNat == 0x2029 || c.toNat == 0x202F || c.toNat == 0x205F || c.toNat == 0x3000

/-- The words of a string, in order: its maximal runs without white space. -/
def fields (s : String) : List String :=
  ((s.toList.splitOnP isSpace).filter fun w => !w.isEmpty).map String.ofList

/-- The string without the white space at its ends. -/
def trimSpace (s : String) : String :=
  String.ofList ((s.toList.dropWhile isSpace).reverse.dropWhile isSpace).reverse

/-- The strings of a list with one blank between neighbours. -/
def join (l : List String) : String :=
  " ".intercalate l

/-- A string that splitting leaves whole: not empty, and free of white space. -/
def Word (s : String) : Prop :=
  s ≠ "" ∧ ∀ c ∈ s.toList, isSpace c = false

instance (s : String) : Decidable (Word s) :=
  @instDecidableAnd _ _ inferInstance (List.decidableBAll _ _)

theorem trimSpace_of_word {s : String} (h : Word s) : trimSpace s = s := by
  have hkeep : ∀ l : List Char, (∀ c ∈ l, isSpace c = false) → l.dropWhile isSpace = l := by
    intro l hl
    cases l with
    | nil => rfl
    | cons c rest => rw [List.dropWhile_cons_of_neg (by simp [hl c])]
  rw [trimSpace, hkeep _ h.2, hkeep _ (fun c hc => h.2 c (List.mem_reverse.mp hc)),
    List.reverse_reverse, String.ofList_toList]

theorem join_ne_empty {l : List String} (hne : l ≠ []) (h : ∀ s ∈ l, s ≠ "") : join l ≠ "" := by
  match l with
  | [a] => simpa [join] using h a
  | a :: b :: rest => simp [join]

@[simp] theorem fields_empty : fields "" = [] := by
  decide

theorem fields_append_blank (a b : String) : fields (a ++ " " ++ b) = fields a ++ fields b := by
  have hlist : (a ++ " " ++ b).toList = a.toList ++ ' ' :: b.toList := by
    simp [String.toList_append]
  rw [fields, hlist, List.splitOnP_append_cons _ _ (by decide), List.filter_append,
    List.map_append]
  rfl

/-- **Splitting what was joined.** The result is the words of each member in turn. -/
theorem fields_join (l : List String) : fields (join l) = l.flatMap fields := by
  induction l with
  | nil => exact fields_empty
  | cons a rest ih =>
    cases rest with
    | nil => simp [join]
    | cons b rest =>
      rw [join, String.intercalate_cons_cons, fields_append_blank, List.flatMap_cons, ← ih]
      rfl

/-- No piece holds a separator. -/
theorem eq_false_of_mem_splitOnP {α : Type*} {p : α → Bool} {cs w : List α}
    (hw : w ∈ cs.splitOnP p) : ∀ c ∈ w, p c = false := by
  induction cs generalizing w with
  | nil =>
    obtain rfl : w = [] := by simpa using hw
    simp
  | cons a cs ih =>
    rw [List.splitOnP_cons_eq_if_modifyHead] at hw
    split at hw
    · rcases List.mem_cons.mp hw with rfl | hw
      · simp
      · exact ih hw
    · obtain ⟨u, rest, hu⟩ := List.exists_cons_of_ne_nil (List.splitOnP_ne_nil p cs)
      rw [hu] at hw ih
      rcases List.mem_cons.mp hw with rfl | hw
      · intro c hc
        rcases List.mem_cons.mp hc with rfl | hc
        · simp_all
        · exact ih List.mem_cons_self c hc
      · exact ih (List.mem_cons_of_mem u hw)

theorem word_of_mem_fields {s w : String} (h : w ∈ fields s) : Word w := by
  obtain ⟨cs, hcs, rfl⟩ := List.mem_map.mp h
  obtain ⟨hmem, hne⟩ := List.mem_filter.mp hcs
  refine ⟨fun h0 => ?_, fun c hc => ?_⟩
  · have : cs = [] := by simpa using congrArg String.toList h0
    simp [this] at hne
  · rw [String.toList_ofList] at hc
    exact eq_false_of_mem_splitOnP hmem c hc

theorem fields_of_word {w : String} (h : Word w) : fields w = [w] := by
  have hsplit : w.toList.splitOnP isSpace = [w.toList] :=
    List.splitOnP_eq_singleton h.2
  have hne : w.toList ≠ [] := fun h0 => h.1 (by simpa using congrArg String.ofList h0)
  simp [fields, hsplit, hne]

theorem fields_join_of_words {l : List String} (h : ∀ w ∈ l, Word w) : fields (join l) = l := by
  rw [fields_join]
  induction l with
  | nil => rfl
  | cons a rest ih =>
    rw [List.flatMap_cons, fields_of_word (h a List.mem_cons_self),
      ih fun w hw => h w (List.mem_cons_of_mem a hw)]
    rfl

end Text
