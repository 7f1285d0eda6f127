import Mathlib.Data.List.Dedup
import Mathlib.Data.List.Sort
import Mathlib.Tactic.IntervalCases

/-!
# Query strings

The query of a URL as the standard library of the source language reads and writes it: pairs between
ampersands, a name and a value on either side of the first equals sign, both percent-encoded.
Reading is permissive. A pair that does not decode, or that has a semicolon in it, is left out and
everything else is kept. Writing is canonical: the names in order, the values of a name in the order
they came in, and all but the unreserved characters encoded.

So a query that has been written reads back as it was, name by name (`values_parse_encode`), while
reading and writing again may lose pairs: those that did not decode.

## Main definitions

* `Query.escape`, `Query.unescape`: percent-encoding.
* `Query.parse`, `Query.encode`: a query and its pairs.
* `Query.set`, `Query.values`: the values of a name.
-/

namespace Query

/-! ### Percent-encoding -/

/-- A character that needs no encoding: a letter, a digit, or one of `-`, `.`, `_` and `~`. -/
def unreserved (c : UInt8) : Bool :=
  (65 ≤ c && c ≤ 90) || (97 ≤ c && c ≤ 122) ||
    (48 ≤ c && c ≤ 57) || c == 45 || c == 46 || c == 95 || c == 126

/-- The digit of a number below sixteen. -/
def hexDigit (n : ℕ) : UInt8 := if n < 10 then UInt8.ofNat (48 + n) else UInt8.ofNat (55 + n)

/-- The number of a digit, in either case. -/
def hexValue (c : UInt8) : Option ℕ :=
  if 48 ≤ c && c ≤ 57 then some (c.toNat - 48)
  else if 65 ≤ c && c ≤ 70 then some (c.toNat - 55)
  else if 97 ≤ c && c ≤ 102 then some (c.toNat - 87)
  else none

/-- One character, encoded: a blank is a plus sign. -/
def escapeByte (c : UInt8) : List UInt8 :=
  if unreserved c then [c]
  else if c == 32 then [43]
  else [37, hexDigit (c.toNat / 16), hexDigit (c.toNat % 16)]

/-- Encode. -/
def escape (s : List UInt8) : List UInt8 := s.flatMap escapeByte

/-- Decode; a percent sign must be followed by two digits. -/
def unescape : List UInt8 → Option (List UInt8)
  | [] => some []
  | c :: rest =>
    if c == 37 then
      match rest with
      | hi :: lo :: rest => do
        let h ← hexValue hi
        let l ← hexValue lo
        let decoded ← unescape rest
        pure (UInt8.ofNat (16 * h + l) :: decoded)
      | _ => none
    else do
      let decoded ← unescape rest
      pure ((if c == 43 then 32 else c) :: decoded)

theorem hexValue_hexDigit {n : ℕ} (h : n < 16) : hexValue (hexDigit n) = some n := by
  interval_cases n <;> rfl

theorem unescape_cons {c : UInt8} (h : c ≠ 37) (rest : List UInt8) :
    unescape (c :: rest) = (unescape rest).map ((if c == 43 then 32 else c) :: ·) := by
  rw [unescape.eq_def]
  simp only [beq_eq_false_iff_ne.mpr h]
  cases unescape rest <;> rfl

theorem unescape_percent {hi lo : UInt8} {h l : ℕ} (hhi : hexValue hi = some h)
    (hlo : hexValue lo = some l)
    (rest : List UInt8) : unescape (37 :: hi :: lo :: rest) =
      (unescape rest).map (UInt8.ofNat (16 * h + l) :: ·) := by
  rw [unescape.eq_def]
  simp only [beq_self_eq_true, if_true, hhi, hlo]
  cases unescape rest <;> rfl

/-- Decoding undoes the encoding of one character. -/
theorem unescape_escapeByte (c : UInt8) (rest : List UInt8) :
    unescape (escapeByte c ++ rest) = (unescape rest).map (c :: ·) := by
  unfold escapeByte
  by_cases hplain : unreserved c = true
  · have h37 : c ≠ 37 := by
      rintro rfl
      cases hplain
    have h43 : (c == 43) = false := by
      rw [beq_eq_false_iff_ne]
      rintro rfl
      cases hplain
    rw [if_pos hplain, List.singleton_append, unescape_cons h37, h43]
    rfl
  · rw [if_neg hplain]
    by_cases hblank : (c == 32) = true
    · obtain rfl := beq_iff_eq.mp hblank
      exact unescape_cons (by decide) rest
    · have hlt : c.toNat < 256 := c.toNat_lt
      have hhi : hexValue (hexDigit (c.toNat / 16)) = some (c.toNat / 16) :=
        hexValue_hexDigit (by omega)
      have hlo : hexValue (hexDigit (c.toNat % 16)) = some (c.toNat % 16) :=
        hexValue_hexDigit (by omega)
      rw [if_neg hblank]
      change unescape (37 :: hexDigit (c.toNat / 16) :: hexDigit (c.toNat % 16) :: rest) = _
      rw [unescape_percent hhi hlo, Nat.div_add_mod, UInt8.ofNat_toNat]

/-- **Decoding undoes encoding.** -/
theorem unescape_escape (s : List UInt8) : unescape (escape s) = some s := by
  induction s with
  | nil => rfl
  | cons c rest ih =>
    change unescape (escapeByte c ++ escape rest) = _
    rw [unescape_escapeByte, ih]
    rfl

/-- The characters with a meaning in a query do not occur in what has been encoded. -/
theorem not_mem_escape {s : List UInt8} : 38 ∉ escape s ∧ 59 ∉ escape s ∧ 61 ∉ escape s := by
  have hall : ∀ n < 256, 38 ∉ escapeByte (UInt8.ofNat n) ∧ 59 ∉ escapeByte (UInt8.ofNat n) ∧
      61 ∉ escapeByte (UInt8.ofNat n) := by decide +kernel
  have hbyte : ∀ c : UInt8, 38 ∉ escapeByte c ∧ 59 ∉ escapeByte c ∧ 61 ∉ escapeByte c := by
    intro c
    rw [← UInt8.ofNat_toNat (x := c)]
    exact hall c.toNat c.toNat_lt
  simp only [escape, List.mem_flatMap, not_exists, not_and]
  exact ⟨fun c _ => (hbyte c).1, fun c _ => (hbyte c).2.1, fun c _ => (hbyte c).2.2⟩

/-! ### Pairs -/

/-- The two sides of the first equals sign. -/
def cut (seg : List UInt8) : List UInt8 × List UInt8 :=
  (seg.takeWhile (· != 61), (seg.dropWhile (· != 61)).drop 1)

/-- The pair of a segment, if it decodes. -/
def readPair (seg : List UInt8) : Option (List UInt8 × List UInt8) :=
  if seg.isEmpty || seg.contains 59 then none
  else do
    let name ← unescape (cut seg).1
    let value ← unescape (cut seg).2
    pure (name, value)

def parse (raw : List UInt8) : List (List UInt8 × List UInt8) :=
  (raw.splitOn 38).filterMap readPair

def writePair (p : List UInt8 × List UInt8) : List UInt8 := escape p.1 ++ 61 :: escape p.2

theorem readPair_writePair (p : List UInt8 × List UInt8) : readPair (writePair p) = some p := by
  obtain ⟨name, value⟩ := p
  have hname : ∀ c ∈ escape name, (c != 61) = true := by
    intro c hc
    simp only [bne_iff_ne]
    rintro rfl
    exact not_mem_escape.2.2 hc
  have hcut : cut (writePair (name, value)) = (escape name, escape value) := by
    unfold cut writePair
    rw [List.takeWhile_append_of_pos hname, List.dropWhile_append_of_pos hname]
    simp
  have hsemi : (writePair (name, value)).contains 59 = false := by
    have hmem : 59 ∉ writePair (name, value) := by
      simp [writePair, not_mem_escape.2.1]
    simpa using hmem
  have hempty : (writePair (name, value)).isEmpty = false := by simp [writePair]
  unfold readPair
  rw [hempty, hsemi, hcut]
  simp [unescape_escape]

/-! ### Values -/

def values (name : List UInt8) (ps : List (List UInt8 × List UInt8)) : List (List UInt8) :=
  (ps.filter (·.1 == name)).map Prod.snd

def set (name value : List UInt8) (ps : List (List UInt8 × List UInt8)) :
    List (List UInt8 × List UInt8) :=
  ps.filter (·.1 != name) ++ [(name, value)]

variable (ps : List (List UInt8 × List UInt8))

def names : List (List UInt8) :=
  (ps.map Prod.fst).dedup.insertionSort (· ≤ ·)

def grouped : List (List UInt8 × List UInt8) :=
  (names ps).flatMap fun name => (values name ps).map fun value => (name, value)

def encode : List UInt8 :=
  [38].intercalate ((grouped ps).map writePair)

theorem values_set_of_ne {name other value : List UInt8} {ps : List (List UInt8 × List UInt8)}
    (h : other ≠ name) :
    values other (set name value ps) = values other ps := by
  have hlast : [(name, value)].filter (·.1 == other) = [] := by simp [Ne.symm h]
  unfold values set
  rw [List.filter_append, hlast, List.append_nil, List.filter_filter]
  congr 1
  refine List.filter_congr fun p _ => ?_
  by_cases hp : p.1 = other
  · simp [hp, h]
  · simp [hp]

theorem mem_names {name : List UInt8} {ps : List (List UInt8 × List UInt8)} :
    name ∈ names ps ↔ ∃ value, (name, value) ∈ ps := by
  simp [names]

theorem values_grouped (name : List UInt8) (ps : List (List UInt8 × List UInt8)) :
    values name (grouped ps) = values name ps := by
  have hnodup : (names ps).Nodup := (List.perm_insertionSort _ _).nodup_iff.mpr (List.nodup_dedup _)
  have hgroup : ∀ l : List (List UInt8), l.Nodup →
      values name (l.flatMap fun n => (values n ps).map fun v => (n, v)) =
        if name ∈ l then values name ps else [] := by
    intro l hl
    induction l with
    | nil => rfl
    | cons n rest ih =>
      obtain ⟨hn, hrest⟩ := List.nodup_cons.mp hl
      rw [List.flatMap_cons]
      have happend : ∀ a b, values name (a ++ b) = values name a ++ values name b := by
        intro a b
        simp [values]
      rw [happend, ih hrest]
      by_cases heq : n = name
      · subst heq
        rw [if_neg hn, if_pos List.mem_cons_self]
        simp [values, List.filter_map, Function.comp_def]
      · have hother : values name ((values n ps).map fun v => (n, v)) = [] := by
          simp [values, List.filter_map, Function.comp_def, heq]
        rw [hother, List.nil_append]
        by_cases hmem : name ∈ rest
        · rw [if_pos hmem, if_pos (List.mem_cons_of_mem n hmem)]
        · rw [if_neg hmem, if_neg (by simp [Ne.symm heq, hmem])]
  unfold grouped
  rw [hgroup _ hnodup]
  by_cases hmem : name ∈ names ps
  · rw [if_pos hmem]
  · rw [if_neg hmem]
    have hnone : ∀ p ∈ ps, p.1 ≠ name := by
      rintro p hp rfl
      exact hmem (mem_names.mpr ⟨p.2, hp⟩)
    simpa [values] using hnone

/-- **Reading what has been written.** The pairs come back, name by name. -/
theorem parse_encode : parse (encode ps) = grouped ps := by
  unfold parse encode
  by_cases hempty : grouped ps = []
  · rw [hempty]
    rfl
  · have hsep : ∀ seg ∈ (grouped ps).map writePair, 38 ∉ seg := by
      intro seg hseg
      obtain ⟨p, -, rfl⟩ := List.mem_map.mp hseg
      simp [writePair, not_mem_escape.1]
    rw [List.splitOn_intercalate 38 hsep (by simpa using hempty), List.filterMap_map]
    have hread : (readPair ∘ writePair) = some := by
      funext p
      exact readPair_writePair p
    rw [hread, List.filterMap_some]

theorem values_parse_encode (name : List UInt8) (ps : List (List UInt8 × List UInt8)) :
    values name (parse (encode ps)) = values name ps := by
  rw [parse_encode, values_grouped]

end Query
