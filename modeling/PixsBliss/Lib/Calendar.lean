import Mathlib.Tactic

/-! # The Gregorian calendar

Days are numbered from 1 January 1970 on, over all years. A `Date` is a day of a month of a year,
and can only be built of one that exists.

* `dayNumber_date`: every day has a date.
* `dayNumber_injective`, `dayNumber_next`: different dates are different days, and the next date is
  the next day. -/

namespace PixsBliss.Lib.Calendar

/-! ### Years -/

def isLeapYear (y : ℤ) : Bool := decide (y % 4 = 0 ∧ (y % 100 ≠ 0 ∨ y % 400 = 0))

/-- The number of 1 January. -/
def dayFromYear (y : ℤ) : ℤ :=
  365 * (y - 1970) + (y - 1969) / 4 - (y - 1901) / 100 + (y - 1601) / 400

/-- The year of a day: the year by the mean length of 400 years, or one next to it. -/
def yearOf (n : ℤ) : ℤ :=
  let y := 1970 + 400 * n / 146097
  if n < dayFromYear y then y - 1 else if dayFromYear (y + 1) ≤ n then y + 1 else y

theorem dayFromYear_succ (y : ℤ) :
    dayFromYear (y + 1) = dayFromYear y + if isLeapYear y then 366 else 365 := by
  unfold dayFromYear isLeapYear
  simp only [decide_eq_true_eq]
  split_ifs <;> omega

theorem dayFromYear_mono {y y' : ℤ} (h : y ≤ y') : dayFromYear y ≤ dayFromYear y' := by
  unfold dayFromYear
  omega

/-- A day is between the beginning of its year and that of the next one. -/
theorem yearOf_spec (n : ℤ) : dayFromYear (yearOf n) ≤ n ∧ n < dayFromYear (yearOf n + 1) := by
  simp only [yearOf]
  split_ifs with h1 h2
  · refine ⟨?_, ?_⟩
    · unfold dayFromYear at *
      omega
    · rw [sub_add_cancel]
      exact h1
  · refine ⟨h2, ?_⟩
    unfold dayFromYear at *
    omega
  · omega

/-! ### Months -/

/-- The days of a year before its month `m + 1`. -/
def daysUntilMonth (leap : Bool) (m : ℕ) : ℕ :=
  [0, 31, 59, 90, 120, 151, 181, 212, 243, 273, 304, 334].getD m 365 +
    if leap ∧ 2 ≤ m then 1 else 0

def daysInMonth (y : ℤ) (m : ℕ) : ℕ :=
  daysUntilMonth (isLeapYear y) m - daysUntilMonth (isLeapYear y) (m - 1)

/-- The month of a day of the year, not after the month `m`. -/
def monthOf (leap : Bool) (yday : ℕ) : ℕ → ℕ
  | 0 => 1
  | m + 1 => if daysUntilMonth leap m ≤ yday then m + 1 else monthOf leap yday m

theorem daysUntilMonth_zero (leap : Bool) : daysUntilMonth leap 0 = 0 := by
  cases leap <;> rfl

theorem daysUntilMonth_twelve (leap : Bool) :
    daysUntilMonth leap 12 = if leap then 366 else 365 := by
  cases leap <;> rfl

theorem daysUntilMonth_lt (leap : Bool) {m : ℕ} (h : m < 12) :
    daysUntilMonth leap m < daysUntilMonth leap (m + 1) := by
  interval_cases m <;> cases leap <;> decide

theorem daysUntilMonth_mono (leap : Bool) {m m' : ℕ} (h : m ≤ m') (h' : m' ≤ 12) :
    daysUntilMonth leap m ≤ daysUntilMonth leap m' := by
  induction m', h using Nat.le_induction with
  | base => exact le_rfl
  | succ m' _ ih => exact (ih (by omega)).trans (daysUntilMonth_lt leap (by omega)).le

theorem monthOf_spec {leap : Bool} {yday m : ℕ} (hpos : 1 ≤ m)
    (h : yday < daysUntilMonth leap m) : 1 ≤ monthOf leap yday m ∧ monthOf leap yday m ≤ m ∧
      daysUntilMonth leap (monthOf leap yday m - 1) ≤ yday ∧
      yday < daysUntilMonth leap (monthOf leap yday m) := by
  induction m, hpos using Nat.le_induction with
  | base =>
    have hzero : daysUntilMonth leap 0 ≤ yday := by
      rw [daysUntilMonth_zero]
      omega
    rw [monthOf, if_pos hzero]
    exact ⟨le_rfl, le_rfl, hzero, h⟩
  | succ m _ ih =>
    by_cases hm : daysUntilMonth leap m ≤ yday
    · rw [monthOf, if_pos hm]
      exact ⟨by omega, le_rfl, hm, h⟩
    · rw [monthOf, if_neg hm]
      obtain ⟨h1, h2, h3, h4⟩ := ih (by omega)
      exact ⟨h1, by omega, h3, h4⟩

theorem daysInMonth_le (y : ℤ) {m : ℕ} (hle : m ≤ 12) : daysInMonth y m ≤ 31 := by
  unfold daysInMonth
  interval_cases m <;> cases isLeapYear y <;> decide

/-! ### Dates -/

/-- **A date of the calendar.** -/
structure Date where
  year : ℤ
  month : ℕ
  day : ℕ
  month_pos : 1 ≤ month
  month_le : month ≤ 12
  day_pos : 1 ≤ day
  day_le : day ≤ daysInMonth year month
deriving DecidableEq

/-- There is a date with these fields. -/
def IsDate (year : ℤ) (month day : ℕ) : Prop :=
  (1 ≤ month ∧ month ≤ 12) ∧ 1 ≤ day ∧ day ≤ daysInMonth year month

instance (year : ℤ) (month day : ℕ) : Decidable (IsDate year month day) := by
  unfold IsDate; infer_instance

namespace Date

/-- The date with these fields. -/
def of (year : ℤ) (month day : ℕ) (h : IsDate year month day) : Date :=
  ⟨year, month, day, h.1.1, h.1.2, h.2.1, h.2.2⟩

/-- The day of the year, from 0 on. -/
def dayOfYear (d : Date) : ℕ := daysUntilMonth (isLeapYear d.year) (d.month - 1) + (d.day - 1)

def dayNumber (d : Date) : ℤ := dayFromYear d.year + d.dayOfYear

variable {d d' : Date}

theorem ext_fields (hy : d.year = d'.year) (hm : d.month = d'.month) (hd : d.day = d'.day) :
    d = d' := by
  cases d
  cases d'
  cases hy
  cases hm
  cases hd
  rfl

theorem daysInMonth_add (y : ℤ) {m : ℕ} (hle : m ≤ 12) :
    daysUntilMonth (isLeapYear y) (m - 1) + daysInMonth y m = daysUntilMonth (isLeapYear y) m := by
  have hmono := daysUntilMonth_mono (isLeapYear y) (Nat.sub_le m 1) hle
  unfold daysInMonth
  omega

theorem one_le_daysInMonth (y : ℤ) {m : ℕ} (hpos : 1 ≤ m) (hle : m ≤ 12) :
    1 ≤ daysInMonth y m := by
  have hlt := daysUntilMonth_lt (isLeapYear y) (by omega : m - 1 < 12)
  rw [Nat.sub_add_cancel hpos] at hlt
  unfold daysInMonth
  omega

theorem dayOfYear_lt (d : Date) :
    d.dayOfYear < daysUntilMonth (isLeapYear d.year) d.month := by
  have hadd := daysInMonth_add d.year d.month_le
  have hpos := d.day_pos
  have hle := d.day_le
  unfold dayOfYear
  omega

/-- A date is in its year. -/
theorem dayNumber_bounds (d : Date) :
    dayFromYear d.year ≤ d.dayNumber ∧ d.dayNumber < dayFromYear (d.year + 1) := by
  have hlt := d.dayOfYear_lt
  have hmono := daysUntilMonth_mono (isLeapYear d.year) d.month_le le_rfl
  rw [daysUntilMonth_twelve] at hmono
  rw [dayFromYear_succ]
  unfold dayNumber
  split_ifs at hmono ⊢ <;> omega

theorem year_le_of_dayNumber_le (h : d.dayNumber ≤ d'.dayNumber) : d.year ≤ d'.year := by
  by_contra hlt
  have hmono := dayFromYear_mono (by omega : d'.year + 1 ≤ d.year)
  have hd := d.dayNumber_bounds
  have hd' := d'.dayNumber_bounds
  omega

theorem month_le_of_dayOfYear_le (hy : d.year = d'.year) (h : d.dayOfYear ≤ d'.dayOfYear) :
    d.month ≤ d'.month := by
  by_contra hlt
  have hle := d.month_le
  have hmono := daysUntilMonth_mono (isLeapYear d.year) (by omega : d'.month ≤ d.month - 1)
    (by omega)
  have hd' := d'.dayOfYear_lt
  rw [← hy] at hd'
  have hstart : daysUntilMonth (isLeapYear d.year) (d.month - 1) ≤ d.dayOfYear :=
    Nat.le_add_right _ _
  omega

/-- **Different dates are different days.** -/
theorem dayNumber_injective (h : d.dayNumber = d'.dayNumber) : d = d' := by
  have hyear : d.year = d'.year :=
    le_antisymm (year_le_of_dayNumber_le h.le) (year_le_of_dayNumber_le h.ge)
  have hyday : d.dayOfYear = d'.dayOfYear := by
    unfold dayNumber at h
    rw [hyear] at h
    omega
  have hmonth : d.month = d'.month := le_antisymm (month_le_of_dayOfYear_le hyear hyday.le)
    (month_le_of_dayOfYear_le hyear.symm hyday.ge)
  refine ext_fields hyear hmonth ?_
  have hpos := d.day_pos
  have hpos' := d'.day_pos
  unfold dayOfYear at hyday
  rw [hyear, hmonth] at hyday
  omega

/-! ### The next date -/

/-- The date after a date. -/
def next (d : Date) : Date :=
  if hday : d.day < daysInMonth d.year d.month then
    { d with day := d.day + 1, day_pos := by omega, day_le := hday }
  else if hmonth : d.month < 12 then
    { d with
      month := d.month + 1, day := 1, month_pos := by omega, month_le := hmonth, day_pos := le_rfl
      day_le := one_le_daysInMonth d.year (by omega) hmonth }
  else
    { year := d.year + 1, month := 1, day := 1, month_pos := le_rfl, month_le := by decide
      day_pos := le_rfl, day_le := one_le_daysInMonth (d.year + 1) le_rfl (by decide) }

/-- **The next date is the next day.** -/
theorem dayNumber_next (d : Date) : d.next.dayNumber = d.dayNumber + 1 := by
  have hpos := d.day_pos
  have hadd := daysInMonth_add d.year d.month_le
  have hle := d.day_le
  unfold next dayNumber dayOfYear
  split_ifs with hday hmonth
  · simp only
    omega
  · simp only [Nat.add_sub_cancel]
    omega
  · -- the last day of the year
    have hlast : d.month = 12 := le_antisymm d.month_le (not_lt.mp hmonth)
    rw [hlast, daysUntilMonth_twelve] at hadd
    rw [hlast] at hday hle ⊢
    simp only [dayFromYear_succ, Nat.sub_self, daysUntilMonth_zero]
    split_ifs at hadd ⊢ <;> omega

end Date

/-! ### The date of a day -/

/-- The day of its year, from 0 on. -/
def ydayOf (n : ℤ) : ℕ := (n - dayFromYear (yearOf n)).toNat

theorem ydayOf_lt (n : ℤ) : ydayOf n < daysUntilMonth (isLeapYear (yearOf n)) 12 := by
  have hspec := yearOf_spec n
  rw [dayFromYear_succ] at hspec
  rw [daysUntilMonth_twelve, ydayOf]
  split_ifs at hspec ⊢ <;> omega

/-- The date of a day. -/
def date (n : ℤ) : Date :=
  have hmonth := monthOf_spec (by decide : 1 ≤ 12) (ydayOf_lt n)
  have hadd := Date.daysInMonth_add (yearOf n) hmonth.2.1
  { year := yearOf n
    month := monthOf (isLeapYear (yearOf n)) (ydayOf n) 12
    day := ydayOf n -
      daysUntilMonth (isLeapYear (yearOf n)) (monthOf (isLeapYear (yearOf n)) (ydayOf n) 12 - 1) + 1
    month_pos := hmonth.1
    month_le := hmonth.2.1
    day_pos := Nat.le_add_left 1 _
    day_le := by omega }

/-- **Every day has a date.** -/
theorem dayNumber_date (n : ℤ) : (date n).dayNumber = n := by
  have hspec := yearOf_spec n
  have hmonth := monthOf_spec (by decide : 1 ≤ 12) (ydayOf_lt n)
  have hyday : (ydayOf n : ℤ) = n - dayFromYear (yearOf n) := by
    rw [ydayOf]
    omega
  unfold Date.dayNumber Date.dayOfYear date
  simp only
  omega

example : date 20000 = Date.of 2024 10 4 (by decide) := by decide

end PixsBliss.Lib.Calendar
