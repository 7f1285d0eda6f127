import Mathlib.Algebra.Order.Ring.Nat
import Mathlib.Data.Nat.ModEq
import Mathlib.Tactic.Ring

/-!
# The order of decimal texts

Numbers written with a fixed number of digits compare as text the way they compare as numbers, and
so do several of them in a row. Fractions with their trailing zeros cut off do not: when the text
that follows a fraction starts above every digit, a fraction comes *after* every longer one it is
the beginning of.

## Main results

* `digits_lt_iff`: fixed-width decimals.
* `append_lt_append_iff`: texts of the same length in front.
* `trimmed_lt_iff`: trimmed fractions, with an end mark above the digits. A number precedes another
  as text when it is smaller and not a truncation of it, or larger and the other is a truncation of
  it. -/

namespace Text

/-! ### Fixed width -/

/-- The last `w` decimal digits of a number, most significant first. -/
def digits : ℕ → ℕ → List Char
  | 0, _ => []
  | w + 1, n => Nat.digitChar (n / 10 ^ w % 10) :: digits w n

@[simp] theorem length_digits (w n : ℕ) : (digits w n).length = w := by
  induction w with
  | zero => rfl
  | succ w ih => simp [digits, ih]

variable {a b : ℕ}

theorem digitChar_lt_iff (ha : a < 10) (hb : b < 10) : Nat.digitChar a <
    Nat.digitChar b ↔ a < b := by
  have h : ∀ a < 10, ∀ b < 10, (Nat.digitChar a < Nat.digitChar b ↔ a < b) := by decide
  exact h a ha b hb

theorem digitChar_eq_iff (ha : a < 10) (hb : b < 10) : Nat.digitChar a =
    Nat.digitChar b ↔ a = b := by
  have h : ∀ a < 10, ∀ b < 10, (Nat.digitChar a = Nat.digitChar b ↔ a = b) := by decide
  exact h a ha b hb

/-- Comparing two numbers by their leading digit and the rest. -/
theorem radix_lt_iff {p a b r s : ℕ} (hr : r < p) (hs : s < p) :
    r + p * a < s + p * b ↔ a < b ∨ a = b ∧ r < s := by
  rcases Nat.lt_trichotomy a b with h | rfl | h
  · have : p * (a + 1) ≤ p * b := Nat.mul_le_mul_left p h
    have hexp : p * (a + 1) = p * a + p := by ring
    exact ⟨fun _ => .inl h, fun _ => by omega⟩
  · simp
  · have : p * (b + 1) ≤ p * a := Nat.mul_le_mul_left p h
    have hexp : p * (b + 1) = p * b + p := by ring
    exact ⟨fun _ => by omega, fun h' => by omega⟩

/-- Fixed-width decimals compare as text the way the numbers do. -/
theorem digits_lt_iff (w n m : ℕ) : digits w n < digits w m ↔ n % 10 ^ w < m % 10 ^ w := by
  induction w with
  | zero => simp [digits, Nat.mod_one]
  | succ w ih =>
    have hp : 0 < 10 ^ w := Nat.pow_pos (by decide)
    rw [digits, digits, List.cons_lt_cons_iff, digitChar_lt_iff (Nat.mod_lt _ (by decide))
      (Nat.mod_lt _ (by decide)), digitChar_eq_iff (Nat.mod_lt _ (by decide))
      (Nat.mod_lt _ (by decide)), ih, Nat.mod_pow_succ, Nat.mod_pow_succ,
      radix_lt_iff (Nat.mod_lt _ hp) (Nat.mod_lt _ hp)]

theorem append_lt_append_iff {α : Type*} [LT α] {l l' r r' : List α} (h : l.length = l'.length) :
    l ++ r < l' ++ r' ↔ l < l' ∨ l = l' ∧ r < r' := by
  induction l generalizing l' with
  | nil =>
    obtain rfl : l' = [] := by simpa [eq_comm] using h
    simp
  | cons c l ih =>
    cases l' with
    | nil => simp at h
    | cons c' l' =>
      have h : l.length = l'.length := by simpa using h
      simp only [List.cons_append, List.cons_lt_cons_iff, ih h, List.cons.injEq]
      tauto

/-! ### Columns -/

/-- Numbers in columns: each with its width, and the text between it and the next. -/
def columns : List (ℕ × List Char) → List ℕ → List Char
  | (w, sep) :: cols, n :: ns => digits w n ++ (sep ++ columns cols ns)
  | _, _ => []

/-- The numbers fit into the columns. -/
def Fits (cols : List (ℕ × List Char)) (ns : List ℕ) : Prop :=
  List.Forall₂ (fun col n => n < 10 ^ col.1) cols ns

variable {cols : List (ℕ × List Char)} {ns ns' : List ℕ}

theorem length_columns (h : Fits cols ns)
    (h' : Fits cols ns') : (columns cols ns).length = (columns cols ns').length := by
  induction h generalizing ns' with
  | nil =>
    cases h'
    rfl
  | cons _ _ ih =>
    cases h' with
    | cons _ h' => simp [columns, ih h']

/-- Columns compare as text the way the rows do. -/
theorem columns_lt (h : Fits cols ns)
    (h' : Fits cols ns') (hlt : ns < ns') : columns cols ns < columns cols ns' := by
  induction h generalizing ns' with
  | nil =>
    cases h'
    exact absurd hlt (by simp)
  | @cons col n cols ns hn _ ih =>
    cases h' with
    | @cons _ n' _ ns' hn' h' =>
      simp only [columns]
      rw [append_lt_append_iff (by simp), digits_lt_iff, Nat.mod_eq_of_lt hn, Nat.mod_eq_of_lt hn']
      rcases List.cons_lt_cons_iff.mp hlt with hlt | ⟨rfl, hrest⟩
      · exact .inl hlt
      · exact .inr ⟨rfl, (append_lt_append_iff rfl).mpr (.inr ⟨rfl, ih h' hrest⟩)⟩

/-! ### Trimmed fractions -/

def trimZeros : List Char → List Char
  | [] => []
  | c :: rest =>
    match trimZeros rest with
    | [] => if c = '0' then [] else [c]
    | kept => c :: kept

theorem trimZeros_cons (c : Char) (rest : List Char) :
    trimZeros (c :: rest) = if c = '0' ∧ trimZeros rest = [] then [] else c :: trimZeros rest := by
  rw [trimZeros]
  split
  · rename_i hnil
    simp [hnil]
  · rename_i hne
    rw [if_neg fun h => hne h.2]

theorem digitChar_eq_zero (ha : a < 10) : Nat.digitChar a = '0' ↔ a = 0 := by
  have h : ∀ a < 10, (Nat.digitChar a = '0' ↔ a = 0) := by decide
  exact h a ha

theorem trimZeros_digits_eq_nil (w n : ℕ) : trimZeros (digits w n) = [] ↔ n % 10 ^ w = 0 := by
  induction w with
  | zero => simp [digits, trimZeros, Nat.mod_one]
  | succ w ih =>
    have hdigit : n / 10 ^ w % 10 < 10 := Nat.mod_lt _ (by decide)
    have hp : 10 ^ w ≠ 0 := Nat.pos_iff_ne_zero.mp (Nat.pow_pos (by decide))
    have hzero : n % 10 ^ (w + 1) = 0 ↔
        Nat.digitChar (n / 10 ^ w % 10) = '0' ∧ trimZeros (digits w n) = [] := by
      rw [digitChar_eq_zero hdigit, ih, Nat.mod_pow_succ, Nat.add_eq_zero_iff, Nat.mul_eq_zero]
      simp only [hp, false_or, and_comm]
    rw [digits, trimZeros_cons, hzero]
    split
    · rename_i h
      exact iff_of_true rfl h
    · rename_i h
      exact iff_of_false (List.cons_ne_nil _ _) h

theorem trimZeros_digits_succ {w n : ℕ} (h : n % 10 ^ (w + 1) ≠ 0) :
    trimZeros (digits (w + 1) n) =
      Nat.digitChar (n / 10 ^ w % 10) :: trimZeros (digits w n) := by
  have hne : trimZeros (digits (w + 1) n) ≠ [] := fun hnil =>
    h ((trimZeros_digits_eq_nil _ _).mp hnil)
  rw [digits, trimZeros_cons] at hne ⊢
  split at hne
  · exact absurd rfl hne
  · rename_i hkept
    rw [if_neg hkept]

/-- The first number is the second cut down to a multiple of a power of ten, up to `10 ^ w`. -/
def Truncates (w a b : ℕ) : Prop :=
  ∃ j ≤ w, a = b / 10 ^ j * 10 ^ j

theorem truncates_zero {w b : ℕ} (hb : b < 10 ^ w) : Truncates w 0 b :=
  ⟨w, Nat.le_refl w, by simp [Nat.div_eq_of_lt hb]⟩

/-- Cutting a number within its last `w` digits leaves the digits before them. -/
theorem cut_radix {w j m e : ℕ} (hj : j ≤ w) :
    (m + 10 ^ w * e) / 10 ^ j * 10 ^ j = m / 10 ^ j * 10 ^ j + 10 ^ w * e := by
  obtain ⟨k, rfl⟩ := Nat.exists_eq_add_of_le hj
  have hp : 0 < 10 ^ j := Nat.pow_pos (by decide)
  rw [pow_add, Nat.mul_assoc, Nat.add_mul_div_left _ _ hp]
  ring

variable {w d e n m : ℕ}

/-- A truncation other than zero agrees in the leading digit. -/
theorem truncates_radix (hn : n < 10 ^ w) (hm : m < 10 ^ w) (he : e < 10)
    (hne : n + 10 ^ w * d ≠ 0) :
    Truncates (w + 1) (n + 10 ^ w * d) (m + 10 ^ w * e) ↔ d = e ∧ Truncates w n m := by
  have hcut : ∀ j, m / 10 ^ j * 10 ^ j < 10 ^ w := fun j =>
    Nat.lt_of_le_of_lt (Nat.div_mul_le_self m _) hm
  have hlt : m + 10 ^ w * e < 10 ^ (w + 1) := by
    have : 10 ^ w * (e + 1) ≤ 10 ^ w * 10 := Nat.mul_le_mul_left _ he
    rw [Nat.mul_succ] at this
    rw [pow_succ]
    omega
  constructor
  · rintro ⟨j, hj, heq⟩
    rcases Nat.lt_or_ge w j with hwj | hjw
    · -- cutting all digits gives zero
      obtain rfl : j = w + 1 := by omega
      rw [Nat.div_eq_of_lt hlt, Nat.zero_mul] at heq
      exact absurd heq hne
    · rw [cut_radix hjw] at heq
      have hde : d = e := by
        rcases Nat.lt_trichotomy d e with h | h | h
        · have := (radix_lt_iff hn (hcut j)).mpr (.inl h)
          omega
        · exact h
        · have := (radix_lt_iff (hcut j) hn).mpr (.inl h)
          omega
      subst hde
      exact ⟨rfl, j, hjw, by omega⟩
  · rintro ⟨rfl, j, hj, heq⟩
    exact ⟨j, by omega, by rw [cut_radix hj, ← heq]⟩

/-- One number comes before another when both are written as trimmed fractions. -/
def Before (w a b : ℕ) : Prop :=
  a < b ∧ ¬Truncates w a b ∨ b < a ∧ Truncates w b a

theorem before_radix (hn : n < 10 ^ w) (hm : m < 10 ^ w) (hd : d < 10) (he : e < 10)
    (hne : n + 10 ^ w * d ≠ 0) (hne' : m + 10 ^ w * e ≠ 0) :
    Before (w + 1) (n + 10 ^ w * d) (m + 10 ^ w * e) ↔ d < e ∨ d = e ∧ Before w n m := by
  unfold Before
  rw [truncates_radix hn hm he hne, truncates_radix hm hn hd hne', radix_lt_iff hn hm,
    radix_lt_iff hm hn]
  rcases Nat.lt_trichotomy d e with h | rfl | h
  · simp [h, h.ne]
  · simp
  · simp [h.not_gt, h.ne', h.ne]

/-- **Trimmed fractions as text.** The end mark is above every digit. -/
theorem trimmed_lt_iff {z : Char} (hz : ∀ a < 10, Nat.digitChar a < z) (w n m : ℕ) :
    trimZeros (digits w n) ++ [z] < trimZeros (digits w m) ++ [z] ↔
      Before w (n % 10 ^ w) (m % 10 ^ w) := by
  induction w with
  | zero => simp [digits, trimZeros, Before, Nat.mod_one]
  | succ w ih =>
    have hdigit : ∀ k, k / 10 ^ w % 10 < 10 := fun k => Nat.mod_lt _ (by decide)
    have hrest : ∀ k, k % 10 ^ w < 10 ^ w := fun k => Nat.mod_lt _ (Nat.pow_pos (by decide))
    have hwhole : ∀ k, k % 10 ^ (w + 1) < 10 ^ (w + 1) := fun k =>
      Nat.mod_lt _ (Nat.pow_pos (by decide))
    by_cases hn : n % 10 ^ (w + 1) = 0
    · rw [(trimZeros_digits_eq_nil _ _).mpr hn, hn]
      by_cases hm : m % 10 ^ (w + 1) = 0
      · rw [(trimZeros_digits_eq_nil _ _).mpr hm, hm]
        simp [Before]
      · rw [trimZeros_digits_succ hm]
        have hlt := hz _ (hdigit m)
        have hnot : ¬z < Nat.digitChar (m / 10 ^ w % 10) := Char.lt_asymm hlt
        have hne : z ≠ Nat.digitChar (m / 10 ^ w % 10) := fun h => Char.lt_irrefl _ (h ▸ hlt)
        simp [Before, List.cons_lt_cons_iff, truncates_zero (hwhole m), hnot, hne]
    · by_cases hm : m % 10 ^ (w + 1) = 0
      · rw [(trimZeros_digits_eq_nil _ _).mpr hm, trimZeros_digits_succ hn, hm]
        simp [Before, List.cons_lt_cons_iff, truncates_zero (hwhole n), hz _ (hdigit n),
          Nat.pos_of_ne_zero hn]
      · rw [trimZeros_digits_succ hn, trimZeros_digits_succ hm, List.cons_append, List.cons_append,
          List.cons_lt_cons_iff, ih, digitChar_lt_iff (hdigit n) (hdigit m),
          digitChar_eq_iff (hdigit n) (hdigit m)]
        rw [Nat.mod_pow_succ] at hn hm
        rw [Nat.mod_pow_succ, Nat.mod_pow_succ,
          before_radix (hrest n) (hrest m) (hdigit n) (hdigit m) hn hm]

end Text
