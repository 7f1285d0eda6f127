import AuthServer.Domain.Entity
import AuthServer.Text.Calendar
import AuthServer.Text.Order
import Mathlib.Tactic.IntervalCases

/-!
# Times as the SQLite stores write them

Every time column of the SQLite schema is text: `formatTime` writes an instant in UTC in the layout
`RFC3339Nano`, and the statements compare the columns with `<`, `<=` and `ORDER BY`, which for text
is the order of its bytes. The layout drops the trailing zeros of the fraction, and the point with
them when the fraction is zero. The end mark `Z` is above the point and above every digit, so that
an instant is *after* each later one it is a truncation of: `…:05Z` is after `…:05.5Z`.
-/

namespace AuthServer.Store

open Calendar Text

/-! ### The layout -/

/-- Whole seconds since the start of the year 0. -/
def secondOfEra (t : Time) : ℕ := (unix t + 62167219200).toNat

def nanosecond (t : Time) : ℕ := (t % 1000000000).toNat

/-- Year, month, day, hour, minute and second in UTC. -/
def clock (sec : ℕ) : List ℕ :=
  date (sec / 86400) ++ [sec % 86400 / 3600, sec % 86400 % 3600 / 60, sec % 86400 % 60]

/-- `2006-01-02T15:04:05` -/
def layout : List (ℕ × List Char) :=
  [(4, ['-']), (2, ['-']), (2, ['T']), (2, [':']), (2, [':']), (2, [])]

/-- `.999999999` -/
def fraction (nanos : ℕ) : List Char :=
  if nanos = 0 then [] else '.' :: trimZeros (digits 9 nanos)

/-- The number of 400-year cycles to go back from the year 0 to reach the cycle of an earlier
instant. -/
def cyclesBefore (t : Time) : ℕ := (-((unix t + 62167219200) / 12622780800)).toNat

/-- `appendInt` at width 4: a year takes at least four digits, and a sign when it is negative. -/
def yearText (year : ℤ) : List Char :=
  (if year < 0 then ['-'] else []) ++
    (if year.natAbs < 10000 then digits 4 year.natAbs else Nat.toDigits 10 year.natAbs)

/-- `formatTime`: the instant in the layout `2006-01-02T15:04:05.999999999Z07:00`, in UTC. The
calendar repeats every 400 years, so an instant before the year 0 is written from the one as many
cycles later. -/
def formatTime (t : Time) : String :=
  let cycles := cyclesBefore t
  let sec := secondOfEra (t + 12622780800000000000 * cycles)
  String.ofList (yearText (year (sec / 86400) - 400 * cycles) ++
    ('-' :: columns layout.tail (clock sec).tail ++ (fraction (nanosecond t) ++ ['Z'])))

/-- The years 0 to 9999, which take four digits. -/
def Writable (t : Time) : Prop :=
  -62167219200 ≤ unix t ∧ unix t < 253402300800
deriving Decidable

/-- The first instant is the second cut down to fewer decimals of a second. -/
def IsTruncation (t t' : Time) : Prop :=
  ∃ j ≤ 9, t = t' / 10 ^ j * 10 ^ j

/-! ### Seconds -/

theorem clock_strictMono : StrictMono clock := by
  intro sec sec' hlt
  have hlen : ∀ d, (date d).length = 3 := fun _ => rfl
  unfold clock
  rw [append_lt_append_iff ((hlen _).trans (hlen _).symm)]
  rcases Nat.lt_or_ge (sec / 86400) (sec' / 86400) with hday | hday
  · exact .inl (date_lt_date hday)
  · have heq : sec / 86400 = sec' / 86400 := by omega
    refine .inr ⟨congrArg date heq, ?_⟩
    simp only [List.cons_lt_cons_iff, List.lt_irrefl, and_false, or_false]
    omega

variable {sec : ℕ}

theorem fits_clock (hsec : sec < 315569520000) : Fits layout (clock sec) := by
  have hyear : year (sec / 86400) < 10000 :=
    Nat.lt_of_le_of_lt (year_monotone (show sec / 86400 ≤ 3652424 by omega)) (by decide)
  have hyday : yearDay (sec / 86400) < 366 := by
    have := yearDay_lt (sec / 86400)
    split at this <;> omega
  obtain ⟨hmonth, hday⟩ := monthDay_bound (isLeap (year (sec / 86400))) _ hyday
  refine .cons hyear (.cons hmonth (.cons hday (.cons ?_ (.cons ?_ (.cons ?_ .nil))))) <;>
    simp only [Nat.reducePow] <;> omega

theorem columns_clock_lt_iff {sec' : ℕ} (h : sec < 315569520000) (h' : sec' < 315569520000) :
    columns layout (clock sec) < columns layout (clock sec') ↔ sec < sec' := by
  constructor
  · intro hlt
    by_contra hge
    rcases Nat.lt_or_eq_of_le (Nat.not_lt.mp hge) with hgt | rfl
    · exact List.lt_asymm hlt (columns_lt (fits_clock h') (fits_clock h) (clock_strictMono hgt))
    · exact List.lt_irrefl _ hlt
  · exact fun hlt => columns_lt (fits_clock h) (fits_clock h') (clock_strictMono hlt)

theorem columns_clock_inj {sec' : ℕ} (h : sec < 315569520000) (h' : sec' < 315569520000)
    (heq : columns layout (clock sec) = columns layout (clock sec')) : sec = sec' := by
  have hlt := (columns_clock_lt_iff h h').not
  have hgt := (columns_clock_lt_iff h' h).not
  rw [heq] at hlt hgt
  have := hlt.mp (List.lt_irrefl _)
  have := hgt.mp (List.lt_irrefl _)
  omega

/-! ### Fractions -/

theorem fraction_lt_iff {n n' : ℕ} (hn : n < 10 ^ 9) (hn' : n' < 10 ^ 9) :
    fraction n ++ ['Z'] < fraction n' ++ ['Z'] ↔ Before 9 n n' := by
  have hz : ∀ a < 10, Nat.digitChar a < 'Z' := by decide
  unfold fraction
  split <;> rename_i hzero <;> split <;> rename_i hzero'
  · subst hzero hzero'
    simp [Before]
  · subst hzero
    simp [Before, truncates_zero hn', List.cons_lt_cons_iff]
  · subst hzero'
    simp [Before, truncates_zero hn, List.cons_lt_cons_iff, Nat.pos_of_ne_zero hzero]
  · have htrim := trimmed_lt_iff hz 9 n n'
    rw [Nat.mod_eq_of_lt hn, Nat.mod_eq_of_lt hn'] at htrim
    simp only [List.cons_append, List.cons_lt_cons_iff, true_and]
    exact (or_iff_right (by decide)).trans htrim

/-! ### Instants -/

variable {t : ℤ}

theorem Writable.secondOfEra_eq (h : Writable t) :
    (secondOfEra t : ℤ) = t / 1000000000 + 62167219200 :=
  Int.toNat_of_nonneg (by
    have := h.1
    omega)

theorem Writable.secondOfEra_lt (h : Writable t) : secondOfEra t < 315569520000 := by
  have hsec := h.secondOfEra_eq
  have hlt : t / 1000000000 < 253402300800 := h.2
  omega

theorem nanosecond_eq (t : ℤ) : (nanosecond t : ℤ) = t % 1000000000 :=
  Int.toNat_of_nonneg (Int.emod_nonneg t (by decide))

theorem nanosecond_lt (t : ℤ) : nanosecond t < 1000000000 := by
  have := nanosecond_eq t
  omega

variable {t' : ℤ}

theorem Writable.lt_iff (h : Writable t) (h' : Writable t') :
    t < t' ↔ secondOfEra t < secondOfEra t' ∨
      secondOfEra t = secondOfEra t' ∧ nanosecond t < nanosecond t' := by
  have hsec := h.secondOfEra_eq
  have hsec' := h'.secondOfEra_eq
  have hnano := nanosecond_eq t
  have hnano' := nanosecond_eq t'
  omega

theorem Writable.eq_iff (h : Writable t) (h' : Writable t') :
    t = t' ↔ secondOfEra t = secondOfEra t' ∧ nanosecond t = nanosecond t' := by
  have hlt := h.lt_iff h'
  have hgt := h'.lt_iff h
  omega

theorem yearText_of_lt {n : ℕ} (h : n < 10000) : yearText n = digits 4 n := by
  have hsign : ¬(n : ℤ) < 0 := by omega
  simp [yearText, hsign, h]

/-- In the years 0 to 9999 every column has its fixed width. -/
theorem formatTime_eq (h : Writable t) : formatTime t =
    String.ofList (columns layout (clock (secondOfEra t)) ++
      (fraction (nanosecond t) ++ ['Z'])) := by
  have hcycles : cyclesBefore t = 0 := by
    have hstart : -62167219200 ≤ t / 1000000000 := h.1
    unfold cyclesBefore unix
    omega
  have hyear : year (secondOfEra t / 86400) < 10000 := by
    have hsec := h.secondOfEra_lt
    exact Nat.lt_of_le_of_lt
      (year_monotone (show secondOfEra t / 86400 ≤ 3652424 by omega)) (by decide)
  simp only [formatTime, hcycles, Nat.cast_zero, mul_zero, add_zero, sub_zero, yearText_of_lt hyear]
  rfl

/-- When one text is before another. -/
theorem formatTime_lt_iff (h : Writable t) (h' : Writable t') :
    formatTime t < formatTime t' ↔ secondOfEra t < secondOfEra t' ∨
      secondOfEra t = secondOfEra t' ∧ Before 9 (nanosecond t) (nanosecond t') := by
  have hs := h.secondOfEra_lt
  have hs' := h'.secondOfEra_lt
  rw [String.lt_iff, formatTime_eq h, formatTime_eq h', String.toList_ofList, String.toList_ofList,
    append_lt_append_iff (length_columns (fits_clock hs) (fits_clock hs')),
    columns_clock_lt_iff hs hs', fraction_lt_iff (nanosecond_lt t) (nanosecond_lt t')]
  exact or_congr_right (and_congr_left fun _ =>
    ⟨columns_clock_inj hs hs', fun heq => by rw [heq]⟩)

theorem formatTime_of_past (h : unix t < -62167219200) : ∃ rest,
    formatTime t = String.ofList ('-' :: rest) := by
  have hpast : t / 1000000000 < -62167219200 := h
  have hcycles : (cyclesBefore t : ℤ) = -((t / 1000000000 + 62167219200) / 12622780800) :=
    Int.toNat_of_nonneg (by omega)
  have hdays : secondOfEra (t + 12622780800000000000 * cyclesBefore t) / 86400 ≤ 146096 := by
    unfold secondOfEra unix
    omega
  have hneg : (year (secondOfEra (t + 12622780800000000000 * cyclesBefore t) / 86400) : ℤ) -
      400 * cyclesBefore t < 0 := by
    have hyear : year (secondOfEra (t + 12622780800000000000 * cyclesBefore t) / 86400) ≤ 399 :=
      (year_monotone hdays).trans (by decide)
    omega
  simp only [formatTime, yearText, if_pos hneg]
  exact ⟨_, rfl⟩

/-- An instant before the year 0 is written with a sign, so before every instant of the years 0 to
9999. -/
theorem not_formatTime_lt_of_past (h : Writable t) (hpast : unix t' < -62167219200) :
    ¬formatTime t < formatTime t' := by
  obtain ⟨rest, hrest⟩ := formatTime_of_past hpast
  have hdigit : ∀ a < 10, ¬Nat.digitChar a < '-' ∧ Nat.digitChar a ≠ '-' := by decide
  rw [String.lt_iff, formatTime_eq h, hrest, String.toList_ofList, String.toList_ofList]
  intro hlt
  rcases List.cons_lt_cons_iff.mp hlt with hhead | ⟨hhead, -⟩
  · exact (hdigit _ (Nat.mod_lt _ (by decide))).1 hhead
  · exact (hdigit _ (Nat.mod_lt _ (by decide))).2 hhead

/-- A whole second of the years 0 to 9999 is before another instant as a text only if it is before
it in time, whatever the year of the other. -/
theorem unix_lt_of_formatTime_lt (h : Writable t) (hwhole : nanosecond t = 0)
    (hlt : formatTime t < formatTime t') : unix t < unix t' := by
  by_cases hpast : unix t' < -62167219200
  · exact absurd hlt (not_formatTime_lt_of_past h hpast)
  by_cases hlate : 253402300800 ≤ unix t'
  · exact h.2.trans_le hlate
  have h' : Writable t' := ⟨not_lt.mp hpast, not_le.mp hlate⟩
  have hsec : secondOfEra t < secondOfEra t' := by
    rcases (formatTime_lt_iff h h').mp hlt with hsec | ⟨-, hnano⟩
    · exact hsec
    · rw [hwhole] at hnano
      rcases hnano with ⟨-, hcut⟩ | ⟨hneg, -⟩
      · exact absurd (truncates_zero (nanosecond_lt t')) hcut
      · exact absurd hneg (Nat.not_lt_zero _)
  have ht := h.secondOfEra_eq
  have ht' := h'.secondOfEra_eq
  unfold unix
  omega

/-- Cutting decimals leaves the second and cuts the nanoseconds. -/
theorem cut_eq (t : ℤ) {j : ℕ} (hj : j ≤ 9) :
    t / 10 ^ j * 10 ^ j =
      1000000000 * (t / 1000000000) + (nanosecond t / 10 ^ j * 10 ^ j : ℕ) := by
  obtain ⟨k, hk⟩ := Nat.exists_eq_add_of_le hj
  have hp : (10 : ℤ) ^ j ≠ 0 := pow_ne_zero _ (by decide)
  have hwhole : (1000000000 : ℤ) = 10 ^ j * 10 ^ k := by
    rw [← pow_add, ← hk]
    rfl
  have ht : t = (nanosecond t : ℤ) + 10 ^ j * (10 ^ k * (t / 1000000000)) := by
    rw [← mul_assoc, ← hwhole, nanosecond_eq]
    exact (Int.emod_add_mul_ediv t 1000000000).symm
  conv_lhs => rw [ht]
  rw [Int.add_mul_ediv_left _ _ hp, hwhole]
  push_cast
  ring

theorem isTruncation_iff (h : Writable t) (h' : Writable t') :
    IsTruncation t t' ↔
      secondOfEra t = secondOfEra t' ∧ Truncates 9 (nanosecond t) (nanosecond t') := by
  have hcut : ∀ j ≤ 9, t = t' / 10 ^ j * 10 ^ j ↔ secondOfEra t = secondOfEra t' ∧
      nanosecond t = nanosecond t' / 10 ^ j * 10 ^ j := by
    intro j hj
    have hle : nanosecond t' / 10 ^ j * 10 ^ j ≤ nanosecond t' := Nat.div_mul_le_self _ _
    have hlt := nanosecond_lt t'
    have hsec := h.secondOfEra_eq
    have hsec' := h'.secondOfEra_eq
    have hnano := nanosecond_eq t
    rw [cut_eq t' hj]
    generalize nanosecond t' / 10 ^ j * 10 ^ j = c at *
    omega
  constructor
  · rintro ⟨j, hj, heq⟩
    exact ⟨((hcut j hj).mp heq).1, j, hj, ((hcut j hj).mp heq).2⟩
  · rintro ⟨hsec, j, hj, hnano⟩
    exact ⟨j, hj, (hcut j hj).mpr ⟨hsec, hnano⟩⟩

/-- **The text form of time and its order.** The texts of two instants are in the order of time
exactly when the instants are equal or neither is a truncation of the other. -/
theorem formatTime_order_iff (t t' : Time) (h : Writable t) (h' : Writable t') :
    (t < t' ↔ formatTime t < formatTime t') ↔
      t = t' ∨ ¬IsTruncation t t' ∧ ¬IsTruncation t' t := by
  rw [h.lt_iff h', formatTime_lt_iff h h', h.eq_iff h', isTruncation_iff h h',
    isTruncation_iff h' h]
  -- a truncation is not larger
  have hle : ∀ {a b}, Truncates 9 a b → a ≤ b := by
    rintro a b ⟨j, -, rfl⟩
    exact Nat.div_mul_le_self b _
  unfold Before
  grind

/-- Half past the fifth second is stored before the fifth second. -/
theorem half_second_before : Writable 5000000000 ∧ Writable 5500000000 ∧
    formatTime 5000000000 = "1970-01-01T00:00:05Z" ∧
    formatTime 5500000000 = "1970-01-01T00:00:05.5Z" ∧
    formatTime 5500000000 < formatTime 5000000000 := by
  have hfirst : formatTime 5000000000 = "1970-01-01T00:00:05Z" := by decide +kernel
  have hsecond : formatTime 5500000000 = "1970-01-01T00:00:05.5Z" := by decide +kernel
  refine ⟨by decide, by decide, hfirst, hsecond, ?_⟩
  rw [hfirst, hsecond]
  decide +kernel

theorem formatTime_order_iff_next_second : 5500000000 < (6000000000 : Time) ∧
    formatTime 5500000000 < formatTime 6000000000 := by
  have hlt : 5500000000 < (6000000000 : Time) := by decide
  refine ⟨hlt, ((formatTime_order_iff 5500000000 6000000000 (by decide) (by decide)).mpr
    (.inr ?_)).mp hlt⟩
  constructor <;> rintro ⟨j, hj, heq⟩ <;> interval_cases j <;> revert heq <;> decide

end AuthServer.Store
