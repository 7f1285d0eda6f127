import Mathlib.Data.List.Sort
import Mathlib.Data.List.Dedup
import AuthServer.Text.Fields

/-!
# Scope sets

`internal/domain/scope`: a set of scope names, parsed from a space-separated string and written back
sorted. A set built by `parse` holds words only, so writing it and parsing it again gives the same
names (`ScopeSet.mem_fields_toString`); a set built by `ofNames` may hold any non-empty string.
-/

namespace AuthServer

/-- `sort.Strings`: the byte-wise order of UTF-8 strings is the order of their code points. -/
def sortStrings (l : List String) : List String :=
  l.insertionSort (· ≤ ·)

variable {s : String}

@[simp] theorem mem_sortStrings {l : List String} : s ∈ sortStrings l ↔ s ∈ l :=
  List.mem_insertionSort _

@[simp] theorem sortStrings_eq_nil {l : List String} : sortStrings l = [] ↔ l = [] := by
  rw [← List.length_eq_zero_iff, sortStrings, List.length_insertionSort, List.length_eq_zero_iff]

/-- `scope.Set`: the keys of a map, so without repetition. -/
structure ScopeSet where
  /-- The names in the set, in no particular order. -/
  names : List String
  nodup : names.Nodup
  deriving DecidableEq, Repr

namespace ScopeSet

def parse (s : String) : ScopeSet :=
  ⟨(Text.fields s).dedup, List.nodup_dedup _⟩

/-- `scope.New`: empty names are skipped. -/
def ofNames (scopes : List String) : ScopeSet :=
  ⟨(scopes.filter fun s => s != "").dedup, List.nodup_dedup _⟩

def contains (ss : ScopeSet) (s : String) : Bool :=
  ss.names.contains s

def isEmpty (ss : ScopeSet) : Bool :=
  ss.names.isEmpty

def isSubset (ss other : ScopeSet) : Bool :=
  ss.names.all other.contains

def intersect (ss other : ScopeSet) : ScopeSet :=
  ⟨ss.names.filter other.contains, ss.nodup.filter _⟩

def union (ss other : ScopeSet) : ScopeSet :=
  ⟨(ss.names ++ other.names).dedup, List.nodup_dedup _⟩

/-- `Set.Slice`: the names, sorted. -/
def slice (ss : ScopeSet) : List String :=
  sortStrings ss.names

/-- `Set.String`: the names, sorted, separated by blanks. -/
def toString (ss : ScopeSet) : String :=
  Text.join ss.slice

variable {ss : ScopeSet}

@[simp] theorem contains_iff : ss.contains s = true ↔ s ∈ ss.names := by
  simp [contains]

@[simp] theorem isSubset_iff {other : ScopeSet} : ss.isSubset other = true ↔
    ∀ s ∈ ss.names, s ∈ other.names := by
  simp [isSubset, contains]

@[simp] theorem isEmpty_iff : ss.isEmpty = true ↔ ss.names = [] := by
  simp [isEmpty]

variable {w : String}

@[simp] theorem mem_parse : w ∈ (parse s).names ↔ w ∈ Text.fields s :=
  List.mem_dedup

@[simp] theorem mem_intersect {other : ScopeSet} :
    s ∈ (ss.intersect other).names ↔ s ∈ ss.names ∧ s ∈ other.names := by
  simp [intersect, contains]

/-- Parsing what a set of words was written as gives back its names. -/
theorem mem_fields_toString (h : ∀ s ∈ ss.names, Text.Word s) :
    w ∈ Text.fields ss.toString ↔ w ∈ ss.names := by
  have hw : ∀ s ∈ ss.slice, Text.Word s := fun s hs => h s (mem_sortStrings.mp hs)
  rw [toString, Text.fields_join_of_words hw, slice, mem_sortStrings]

/-- A parsed set survives being written and parsed again. -/
theorem mem_fields_parse_toString : w ∈ Text.fields (parse s).toString ↔ w ∈ Text.fields s := by
  rw [mem_fields_toString fun v hv => Text.word_of_mem_fields (mem_parse.mp hv), mem_parse]

theorem mem_fields_intersect_toString {t : String} :
    w ∈ Text.fields ((parse s).intersect (parse t)).toString ↔ w ∈ Text.fields s ∧
      w ∈ Text.fields t := by
  rw [mem_fields_toString, mem_intersect, mem_parse, mem_parse]
  intro v hv
  exact Text.word_of_mem_fields (mem_parse.mp (mem_intersect.mp hv).1)

theorem parse_names_eq_nil : (parse s).names = [] ↔ Text.fields s = [] := by
  rw [List.eq_nil_iff_forall_not_mem, List.eq_nil_iff_forall_not_mem]
  exact forall_congr' fun w => not_congr mem_parse

theorem isEmpty_parse : (parse s).isEmpty = true ↔ Text.fields s = [] := by
  rw [isEmpty_iff, parse_names_eq_nil]

end ScopeSet

end AuthServer
