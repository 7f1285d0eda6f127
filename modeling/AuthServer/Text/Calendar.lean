import Mathlib.Data.List.Lex
import Mathlib.Order.Monotone.Basic

/-!
# The proleptic Gregorian calendar

Days are counted from the first of January of the year 0, which is a leap year. The year of a day
and its place in that year are found by taking out cycles of 400, 100, 4 and 1 years; the last year
of a cycle of 4 and the last century of a cycle of 400 are a day longer, which is what the
corrections by a quarter account for. Cycles start in a year that is 1 modulo 400, so days are
counted from the year -399 for it. -/

namespace Calendar

def isLeap (year : ℕ) : Bool :=
  year % 4 == 0 && (year % 100 != 0 || year % 400 == 0)

/-- The year and the day of the year, from the start of a cycle of 400 years, as whole cycles are
taken out one size after the other. -/
def cycles (d : ℕ) : ℕ × ℕ :=
  let n400 := d / 146097
  let d := d % 146097
  let n100 := d / 36524 - d / 36524 / 4
  let d := d - 36524 * n100
  let n4 := d / 1461
  let d := d % 1461
  let n1 := d / 365 - d / 365 / 4
  (400 * n400 + 100 * n100 + 4 * n4 + n1, d - 365 * n1)

/-- The days from the year -399 to the year 0. -/
def cycleStart : ℕ := 145731

/-- The year a day falls in. -/
def year (d : ℕ) : ℕ := (cycles (d + cycleStart)).1 - 399

def yearDay (d : ℕ) : ℕ := (cycles (d + cycleStart)).2

/-- The days before each month, in a year that is not a leap year. -/
def daysBefore (month : ℕ) : ℕ :=
  [0, 31, 59, 90, 120, 151, 181, 212, 243, 273, 304, 334, 365].getD month 365

def monthDay (leap : Bool) (yday : ℕ) : ℕ × ℕ :=
  if leap && yday == 59 then (2, 29)
  else
    let day := if leap && yday > 59 then yday - 1 else yday
    let month := day / 31
    if day ≥ daysBefore (month + 1) then (month + 2, day - daysBefore (month + 1) + 1)
    else (month + 1, day - daysBefore month + 1)

def date (d : ℕ) : List ℕ :=
  let md := monthDay (isLeap (year d)) (yearDay d)
  [year d, md.1, md.2]

/-! ### Taking out cycles -/

/-- The day `d` is day `yday` of the year `y`, both counted from the start of a cycle of 400 years:
so many cycles, centuries, cycles of 4 and single years lie before it. The last century of a cycle,
and the last year of a cycle of 4, may be a day longer. -/
structure Splits (d y yday : ℕ) (n400 n100 n4 n1 : ℕ) : Prop where
  year_eq : y = 400 * n400 + 100 * n100 + 4 * n4 + n1
  day_eq : d = 146097 * n400 + (36524 * n100 + (1461 * n4 + (365 * n1 + yday)))
  n100_le : n100 ≤ 3
  n4_le : n4 ≤ 24
  n1_le : n1 ≤ 3
  yday_lt : yday < 365 ∨ yday = 365 ∧ n1 = 3
  century_lt : 1461 * n4 + (365 * n1 + yday) < 36524 ∨
    1461 * n4 + (365 * n1 + yday) = 36524 ∧ n100 = 3

theorem parts_unique {p a a' x x' : ℕ} (h : p * a + x = p * a' + x') (hx : x < p) (hx' : x' < p) :
    a = a' ∧ x = x' := by
  have hdiv : ∀ a x, x < p → (p * a + x) / p = a := fun a x hx => by
    rw [Nat.mul_add_div (Nat.zero_lt_of_lt hx), Nat.div_eq_of_lt hx, Nat.add_zero]
  have ha : a = a' := (hdiv a x hx).symm.trans (h ▸ hdiv a' x' hx')
  subst ha
  exact ⟨rfl, Nat.add_left_cancel h⟩

theorem four_parts_unique {p a a' x x' : ℕ} (h : p * a + x = p * a' + x') (ha : a ≤ 3)
    (ha' : a' ≤ 3) (hx : x < p ∨ x = p ∧ a = 3) (hx' : x' < p ∨ x' = p ∧ a' = 3) :
      a = a' ∧ x = x' := by
  have hlt : ∀ {a b x y}, a < b → b ≤ 3 → x < p ∨ x = p ∧ a = 3 → p * a + x < p * b + y := by
    intro a b x y hab hb hx
    have : p * (a + 1) ≤ p * b := Nat.mul_le_mul_left p hab
    rw [Nat.mul_succ] at this
    omega
  rcases Nat.lt_trichotomy a a' with hlt' | rfl | hlt'
  · exact absurd h (hlt hlt' ha' hx).ne
  · exact ⟨rfl, Nat.add_left_cancel h⟩
  · exact absurd h (hlt hlt' ha hx').ne'

section Splits

variable {d y yday n400 n100 n4 n1 : ℕ}

theorem Splits.rest_lt (h : Splits d y yday n400 n100 n4 n1) : 365 * n1 + yday < 1461 := by
  have := h.n1_le
  have := h.yday_lt
  omega

theorem Splits.cycle_lt (h : Splits d y yday n400 n100 n4 n1) :
    36524 * n100 + (1461 * n4 + (365 * n1 + yday)) < 146097 := by
  have := h.n100_le
  have := h.century_lt
  omega

theorem Splits.unique {y' yday' m400 m100 m4 m1 : ℕ} (h : Splits d y yday n400 n100 n4 n1)
    (h' : Splits d y' yday' m400 m100 m4 m1) : y = y' ∧ yday = yday' := by
  obtain ⟨rfl, hr⟩ := parts_unique (h.day_eq.symm.trans h'.day_eq) h.cycle_lt h'.cycle_lt
  obtain ⟨rfl, hx⟩ := four_parts_unique hr h.n100_le h'.n100_le h.century_lt h'.century_lt
  obtain ⟨rfl, hq⟩ := parts_unique hx h.rest_lt h'.rest_lt
  obtain ⟨rfl, rfl⟩ := four_parts_unique hq h.n1_le h'.n1_le h.yday_lt h'.yday_lt
  exact ⟨h.year_eq.trans h'.year_eq.symm, rfl⟩

/-- One day later is the next day of the year, or the first of the next year. -/
theorem Splits.succ (h : Splits d y yday n400 n100 n4 n1) :
    (∃ a b c e, Splits (d + 1) y (yday + 1) a b c e) ∨ ∃ a b c e,
      Splits (d + 1) (y + 1) 0 a b c e := by
  obtain ⟨rfl, rfl, hb, hc, he, hyday, hcentury⟩ := h
  by_cases hmore : (yday + 1 < 365 ∨ yday + 1 = 365 ∧ n1 = 3) ∧
      (1461 * n4 + (365 * n1 + (yday + 1)) < 36524 ∨
        1461 * n4 + (365 * n1 + (yday + 1)) = 36524 ∧ n100 = 3)
  · exact .inl ⟨n400, n100, n4, n1, rfl, by omega, hb, hc, he, hmore.1, hmore.2⟩
  · right
    -- the smallest cycle that is not yet full takes the new year
    by_cases he' : n1 < 3
    · exact ⟨n400, n100, n4, n1 + 1, by omega, by omega, hb, hc, by omega, by omega, by omega⟩
    · by_cases hc' : n4 < 24
      · exact ⟨n400, n100, n4 + 1, 0, by omega, by omega,
          hb, by omega, by omega, by omega, by omega⟩
      · by_cases hb' : n100 < 3
        · exact ⟨n400, n100 + 1, 0, 0, by omega, by omega, by omega, by omega, by omega, by omega,
            by omega⟩
        · exact ⟨n400 + 1, 0, 0, 0, by omega, by omega, by omega, by omega, by omega, by omega,
            by omega⟩

end Splits

theorem four_parts_spec {p r n : ℕ} (hp : 4 < p) (hr : r < 4 * p + 1) (hn : n = r / p - r / p / 4) :
    n ≤ 3 ∧ p * n ≤ r ∧ (r - p * n < p ∨ r - p * n = p ∧ n = 3) := by
  have hdiv := Nat.div_add_mod r p
  have hmod : r % p < p := Nat.mod_lt r (by omega)
  have hle : r / p ≤ 4 := Nat.lt_succ_iff.mp (Nat.div_lt_of_lt_mul (by omega))
  generalize r / p = q at *
  generalize r % p = x at *
  -- four whole parts are taken for three and a long one
  rcases Nat.lt_or_ge q 4 with hlt | hge
  · obtain rfl : n = q := by omega
    exact ⟨by omega, by omega, .inl (by omega)⟩
  · obtain rfl : q = 4 := by omega
    obtain rfl : n = 3 := hn
    exact ⟨le_rfl, by omega, .inr ⟨by omega, rfl⟩⟩

theorem splits_cycles (d : ℕ) : ∃ a b c e, Splits d (cycles d).1 (cycles d).2 a b c e := by
  have hr : d % 146097 < 4 * 36524 + 1 := Nat.mod_lt _ (by decide)
  have hd := Nat.div_add_mod d 146097
  simp only [cycles]
  generalize d / 146097 = a at *
  generalize d % 146097 = r at *
  obtain ⟨hb, hbr, hlast⟩ := four_parts_spec (by decide) hr rfl
  generalize r / 36524 - r / 36524 / 4 = b at *
  have hx := Nat.div_add_mod (r - 36524 * b) 1461
  have hq : (r - 36524 * b) % 1461 < 4 * 365 + 1 := Nat.mod_lt _ (by decide)
  generalize (r - 36524 * b) / 1461 = c at *
  generalize (r - 36524 * b) % 1461 = q at *
  obtain ⟨he, hqe, hend⟩ := four_parts_spec (by decide) hq rfl
  generalize q / 365 - q / 365 / 4 = e at *
  have hyday : 365 * e + (q - 365 * e) = q := by omega
  refine ⟨a, b, c, e, rfl, ?_, hb, by omega, he, hend, ?_⟩
  · rw [hyday, hx, Nat.add_sub_cancel' hbr, hd]
  · rw [hyday, hx]
    exact hlast

theorem splits_date (d : ℕ) : ∃ a b c e, Splits (d + cycleStart) (year d + 399)
    (yearDay d) a b c e := by
  obtain ⟨a, b, c, e, h⟩ := splits_cycles (d + cycleStart)
  have hstart : 399 ≤ (cycles (d + cycleStart)).1 := by
    have hcycle : cycleStart = 145731 := rfl
    rw [h.year_eq]
    by_contra hlt
    -- at most the first 399 years of the first cycle, whose days all lie before the start
    obtain ⟨ha, hb, hc, he⟩ : a = 0 ∧ b ≤ 3 ∧ c ≤ 24 ∧ 100 * b + 4 * c + e < 399 := by
      have := h.n100_le
      have := h.n4_le
      omega
    have hd := h.day_eq
    have hyday := h.yday_lt
    omega
  have hyear : year d + 399 = (cycles (d + cycleStart)).1 := Nat.sub_add_cancel hstart
  rw [hyear]
  exact ⟨a, b, c, e, h⟩

theorem year_succ (d : ℕ) : year (d + 1) = year d ∧ yearDay (d + 1) = yearDay d + 1 ∨
    year (d + 1) = year d + 1 ∧ yearDay (d + 1) = 0 := by
  obtain ⟨_, _, _, _, hnext⟩ := splits_date (d + 1)
  obtain ⟨_, _, _, _, hthis⟩ := splits_date d
  rw [show d + 1 + cycleStart = d + cycleStart + 1 by omega] at hnext
  rcases hthis.succ with ⟨_, _, _, _, h⟩ | ⟨_, _, _, _, h⟩
  · obtain ⟨hy, hyday⟩ := hnext.unique h
    exact .inl ⟨by omega, hyday⟩
  · obtain ⟨hy, hyday⟩ := hnext.unique h
    exact .inr ⟨by omega, hyday⟩

theorem year_monotone : Monotone year :=
  monotone_nat_of_le_succ fun d => by
    rcases year_succ d with ⟨hy, -⟩ | ⟨hy, -⟩ <;> omega

/-- A year that ends a cycle of 4 is a leap year unless it ends a century, and then if it ends a
cycle of 400. -/
theorem isLeap_of {y a b c : ℕ} (hy : y + 400 = 400 * a + (100 * b + 4 * (c + 1)))
    (hlast : c < 24 ∨ c = 24 ∧ b = 3) : isLeap y = true := by
  simp only [isLeap, Bool.and_eq_true, Bool.or_eq_true, beq_iff_eq, bne_iff_ne]
  rcases hlast with hc | ⟨rfl, rfl⟩
  · exact ⟨by omega, .inl (by omega)⟩
  · exact ⟨by omega, .inr (by omega)⟩

theorem yearDay_lt (d : ℕ) : yearDay d < if isLeap (year d) then 366 else 365 := by
  obtain ⟨a, b, c, e, hy, -, hb, hc, he, hyday, hcentury⟩ := splits_date d
  rcases hyday with hlt | ⟨hlast, rfl⟩
  · split <;> omega
  · rw [if_pos (isLeap_of (a := a) (b := b) (c := c) (by omega) (by omega)), hlast]
    decide

/-! ### Dates in order -/

theorem monthDay_lt : ∀ leap, ∀ yday < 365, yday + 1 < (if leap then 366 else 365) →
    (monthDay leap yday).1 < (monthDay leap (yday + 1)).1 ∨
      (monthDay leap yday).1 = (monthDay leap (yday + 1)).1 ∧
        (monthDay leap yday).2 < (monthDay leap (yday + 1)).2 := by
  decide +kernel

theorem monthDay_bound : ∀ leap, ∀ yday < 366, (monthDay leap yday).1 < 100 ∧
    (monthDay leap yday).2 < 100 := by
  decide +kernel

theorem date_lt_succ (d : ℕ) : date d < date (d + 1) := by
  have hlt := yearDay_lt (d + 1)
  rcases year_succ d with ⟨hy, hyday⟩ | ⟨hy, -⟩
  · simp only [date, hy, hyday] at hlt ⊢
    have hbound : yearDay d < 365 := by
      split at hlt <;> omega
    have hnext := monthDay_lt _ _ hbound hlt
    simp only [List.cons_lt_cons_iff, and_false, or_false, lt_irrefl, false_or,
      true_and]
    exact hnext
  · exact List.cons_lt_cons_iff.mpr (.inl (by omega))

/-- **Later days have later dates.** -/
theorem date_lt_date {m n : ℕ} (h : m < n) : date m < date n := by
  induction h with
  | refl => exact date_lt_succ m
  | step _ ih => exact ih.trans (date_lt_succ _)

end Calendar
