import KeyValueService.Time.Calendar
import Mathlib.Algebra.BigOperators.Intervals
import Mathlib.Algebra.Order.BigOperators.Group.Finset
import Mathlib.Tactic.IntervalCases

/-!
# The days of the calendar, counted one by one

The rules of the Gregorian calendar are the leap years, the lengths of the months and the years that
they make up. They say which dates there are (`Date.Valid`) and how many days lie before each
(`Date.dayNumber`): all of the years before, all of the months before, and the days before it in its
month.

The date that is reckoned for a day is the one with that number (`valid_ofDay`,
`dayNumber_ofDay`). Numbers ascend with year, month and day (`ordinal_lt_of_parts`), so there is no
other (`eq_ofDay`), and later days have later dates (`parts_ofDay_lt`).
-/

namespace KeyValueService.Time

open Finset

/-- Every fourth year, but of the full centuries only every fourth. -/
def isLeap (year : Nat) : Bool :=
  4 ∣ year ∧ (¬100 ∣ year ∨ 400 ∣ year)

/-- Days of a month of a year. -/
def monthLength (year month : Nat) : Nat :=
  if month = 2 then if isLeap year then 29 else 28
  else if month ∈ [4, 6, 9, 11] then 30
  else 31

/-- Days of a year. -/
def yearLength (year : Nat) : Nat :=
  ∑ month ∈ Icc 1 12, monthLength year month

/-- The dates that there are. -/
structure Date.Valid (d : Date) : Prop where
  month : 1 ≤ d.month ∧ d.month ≤ 12
  day : 1 ≤ d.day ∧ d.day ≤ monthLength d.year d.month

/-- Days before a date in its year. -/
def Date.dayOfYear (d : Date) : Nat :=
  ∑ month ∈ Ico 1 d.month, monthLength d.year month + (d.day - 1)

/-- Days before a date from 0000-01-01. -/
def Date.ordinal (d : Date) : Nat :=
  ∑ year ∈ range d.year, yearLength year + d.dayOfYear

/-- Days before a date from 1970-01-01; negative for one before. -/
def Date.dayNumber (d : Date) : Int :=
  d.ordinal - (⟨1970, 1, 1⟩ : Date).ordinal

theorem yearLength_eq (year : Nat) : yearLength year = if isLeap year then 366 else 365 := by
  simp only [yearLength, monthLength, sum_Icc_succ_top, Nat.reduceLeDiff]
  cases isLeap year <;> rfl

theorem monthLength_le (year month : Nat) : monthLength year month ≤ 31 := by
  rw [monthLength]
  split
  · cases isLeap year <;> decide
  · split <;> decide

/-- A year has one day more for each four years, one less for each century and one more for each
era that is complete with it. -/
theorem yearLength_balance (year : Nat) :
    yearLength year + (if 100 ∣ year then 1 else 0) =
      365 + (if 4 ∣ year then 1 else 0) + (if 400 ∣ year then 1 else 0) := by
  rw [yearLength_eq]
  by_cases four : 4 ∣ year <;> by_cases hundred : 100 ∣ year <;>
    by_cases fourHundred : 400 ∣ year <;> simp [isLeap, four, hundred, fourHundred] <;> omega

/-! ## Years that start in March -/

/-- Days of the years, counted from March, before one. -/
def marchDays (year : Nat) : Nat :=
  365 * year + year / 4 - year / 100 + year / 400

/-- A year from March has its leap day in the year of the calendar in which it ends. -/
theorem marchDays_succ (year : Nat) :
    marchDays (year + 1) = marchDays year + yearLength (year + 1) := by
  have balance := yearLength_balance (year + 1)
  have fourYears : (year + 1) / 4 = year / 4 + _ := Nat.succ_div
  have centuries : (year + 1) / 100 = year / 100 + _ := Nat.succ_div
  have eras : (year + 1) / 400 = year / 400 + _ := Nat.succ_div
  rw [marchDays, marchDays]
  omega

theorem marchDays_mono : Monotone marchDays :=
  monotone_nat_of_le_succ fun year => marchDays_succ year ▸ Nat.le_add_right _ _

theorem marchDays_add_era (year era : Nat) :
    marchDays (year + era * 400) = marchDays year + era * daysPerEra := by
  simp only [marchDays, daysPerEra]
  omega

/-- The years of the calendar up to one that ends the same as a year from March. -/
theorem sum_yearLength (year : Nat) :
    ∑ y ∈ range (year + 1), yearLength y = marchDays year + 366 := by
  induction year with
  | zero => rfl
  | succ year inductionHypothesis =>
    rw [sum_range_succ, inductionHypothesis, marchDays_succ]
    omega

theorem yearOfEra_mono {day later : Nat} (ordered : day ≤ later) :
    yearOfEra day ≤ yearOfEra later := by
  refine Nat.div_le_div_right ?_
  omega

/-- The formula for the year is right on the first and on the last day of each year of an era. -/
theorem yearOfEra_ends : ∀ year < 400,
    yearOfEra (marchDays year) = year ∧ yearOfEra (marchDays (year + 1) - 1) = year := by
  decide +kernel

/-- The formula for the year is right on the days between as well, since it never decreases. -/
theorem yearOfEra_bounds {day : Nat} (inEra : day < daysPerEra) :
    yearOfEra day < 400 ∧ marchDays (yearOfEra day) ≤ day ∧
      day < marchDays (yearOfEra day + 1) := by
  have bound : yearOfEra day < 400 := by
    have last : yearOfEra day ≤ yearOfEra (daysPerEra - 1) :=
      yearOfEra_mono (Nat.le_sub_one_of_lt inEra)
    exact Nat.lt_of_le_of_lt last (by decide)
  refine ⟨bound, ?_, ?_⟩
  · by_contra early
    rcases Nat.eq_zero_or_pos (yearOfEra day) with first | positive
    · rw [first] at early
      exact early (Nat.zero_le day)
    · have before : yearOfEra day ≤ yearOfEra (marchDays (yearOfEra day - 1 + 1) - 1) := by
        rw [Nat.sub_add_cancel positive]
        exact yearOfEra_mono (by omega)
      rw [(yearOfEra_ends _ (by omega)).2] at before
      omega
  · by_contra late
    rcases Nat.lt_or_ge (yearOfEra day + 1) 400 with inside | last
    · have after := yearOfEra_mono (Nat.le_of_not_lt late)
      rw [(yearOfEra_ends _ inside).1] at after
      omega
    · have full : daysPerEra ≤ marchDays (yearOfEra day + 1) := marchDays_mono last
      omega

/-- The date in the calendar of a day of a month, counted from zero in March, of a year from
March. -/
def marchDate (year month day : Nat) : Date :=
  if month < 10 then ⟨year, month + 3, day⟩ else ⟨year + 1, month - 9, day⟩

/-- Days of a year from March before one of its months. -/
def marchMonthDays (month : Nat) : Nat :=
  (153 * month + 2) / 5

theorem sum_monthLength (year : Nat) {month : Nat} (known : month < 10) :
    ∑ m ∈ Ico 1 (month + 3), monthLength year m + 306 =
      yearLength year + marchMonthDays month := by
  rw [yearLength_eq]
  interval_cases month <;> simp [sum_Ico_succ_top, monthLength] <;> cases isLeap year <;> rfl

theorem ordinal_marchDate (year : Nat) {month : Nat} (known : month < 12) (day : Nat) :
    (marchDate year month day).ordinal =
      marchDays year + marchMonthDays month + 60 + (day - 1) := by
  rw [marchDate]
  split
  next early =>
    have years := sum_yearLength year
    have months := sum_monthLength year early
    rw [sum_range_succ] at years
    simp only [Date.ordinal, Date.dayOfYear]
    omega
  next late =>
    have months : month = 10 ∨ month = 11 := by omega
    simp only [Date.ordinal, Date.dayOfYear, sum_yearLength]
    rcases months with rfl | rfl
    · simp [marchMonthDays]
    · simp [marchMonthDays, monthLength]
      omega

theorem monthLength_of_march (year : Nat) {month : Nat} (known : month < 10) :
    marchMonthDays month + monthLength year (month + 3) = marchMonthDays (month + 1) := by
  interval_cases month <;> rfl

theorem valid_marchDate {year month day : Nat} (known : month < 12) (positive : 1 ≤ day)
    (inMonth : marchMonthDays month + day ≤ marchMonthDays (month + 1))
    (inYear : marchMonthDays month + day ≤ yearLength (year + 1)) :
    (marchDate year month day).Valid := by
  rw [marchDate]
  split
  next early =>
    have length := monthLength_of_march year early
    have fits : day ≤ monthLength year (month + 3) := by omega
    have months : 1 ≤ month + 3 ∧ month + 3 ≤ 12 := by omega
    exact ⟨months, positive, fits⟩
  next late =>
    have months : month = 10 ∨ month = 11 := by omega
    rcases months with rfl | rfl
    · have fits : day ≤ 31 := by
        simp only [marchMonthDays] at inMonth
        omega
      exact ⟨by simp, positive, fits⟩
    · have fits : day ≤ monthLength (year + 1) 2 := by
        simp only [marchMonthDays, yearLength_eq] at inYear
        simp only [monthLength, if_true]
        split at inYear <;> simp_all <;> omega
      exact ⟨by simp, positive, fits⟩

/-! ## The date of a day -/

/-- The day, counted from zero, of a year from March on which a day of an era falls. -/
def marchDay (dayOfEra : Nat) : Nat :=
  dayOfEra - marchDays (yearOfEra dayOfEra)

/-- The month, counted from zero, of a year from March in which one of its days falls: five months
have 153 days. -/
def marchMonth (dayOfYear : Nat) : Nat :=
  (5 * dayOfYear + 2) / 153

/-- The days of a year from March are those of the year of the calendar in which it ends, in any
era. -/
theorem marchDay_lt {dayOfEra : Nat} (inEra : dayOfEra < daysPerEra) (era : Nat) :
    marchDay dayOfEra < yearLength (yearOfEra dayOfEra + era * 400 + 1) := by
  obtain ⟨-, first, last⟩ := yearOfEra_bounds inEra
  have before := marchDays_add_era (yearOfEra dayOfEra) era
  have after := marchDays_add_era (yearOfEra dayOfEra + 1) era
  rw [Nat.add_right_comm, marchDays_succ] at after
  rw [marchDay]
  omega

theorem marchDay_lt_longest {dayOfEra : Nat} (inEra : dayOfEra < daysPerEra) :
    marchDay dayOfEra < 366 := by
  have inYear := marchDay_lt inEra 0
  rw [yearLength_eq] at inYear
  split at inYear <;> omega

theorem marchMonth_bounds {dayOfYear : Nat} (inYear : dayOfYear < 366) :
    marchMonth dayOfYear < 12 ∧ marchMonthDays (marchMonth dayOfYear) ≤ dayOfYear ∧
      dayOfYear < marchMonthDays (marchMonth dayOfYear + 1) := by
  simp only [marchMonth, marchMonthDays]
  omega

theorem ofDay_eq (n : Nat) :
    let era := (n + epochOffset) / daysPerEra
    let dayOfEra := (n + epochOffset) % daysPerEra
    let month := marchMonth (marchDay dayOfEra)
    Date.ofDay n = marchDate (yearOfEra dayOfEra + era * 400) month
      (marchDay dayOfEra - marchMonthDays month + 1) := by
  intro era dayOfEra month
  have known : yearOfEra dayOfEra < 400 := (yearOfEra_bounds (Nat.mod_lt _ (by decide))).1
  have days : 365 * yearOfEra dayOfEra + yearOfEra dayOfEra / 4 - yearOfEra dayOfEra / 100 =
      marchDays (yearOfEra dayOfEra) := by
    rw [marchDays]
    omega
  simp only [Date.ofDay]
  rw [days]
  rfl

theorem valid_ofDay (n : Nat) : (Date.ofDay n).Valid := by
  have inEra := Nat.mod_lt (n + epochOffset) (by decide : 0 < daysPerEra)
  have inYear := marchDay_lt inEra ((n + epochOffset) / daysPerEra)
  obtain ⟨known, first, last⟩ := marchMonth_bounds (marchDay_lt_longest inEra)
  rw [ofDay_eq]
  exact valid_marchDate known (Nat.le_add_left 1 _) (by omega) (by omega)

theorem ordinal_ofDay (n : Nat) : (Date.ofDay n).ordinal = n + epochOffset + 60 := by
  have inEra := Nat.mod_lt (n + epochOffset) (by decide : 0 < daysPerEra)
  have whole := Nat.div_add_mod' (n + epochOffset) daysPerEra
  obtain ⟨-, newYear, -⟩ := yearOfEra_bounds inEra
  obtain ⟨known, first, -⟩ := marchMonth_bounds (marchDay_lt_longest inEra)
  rw [ofDay_eq, ordinal_marchDate _ known, marchDays_add_era]
  rw [marchDay] at *
  omega

theorem dayNumber_eq (d : Date) : d.dayNumber = d.ordinal - (epochOffset + 60 : Nat) := by
  have epoch : (⟨1970, 1, 1⟩ : Date) = Date.ofDay 0 := by decide
  rw [Date.dayNumber, epoch, ordinal_ofDay, Nat.zero_add]

theorem dayNumber_ofDay (n : Nat) : (Date.ofDay n).dayNumber = n := by
  rw [dayNumber_eq, ordinal_ofDay]
  omega

/-! ## The order of dates -/

/-- Year, month and day, which are compared in this order. -/
def Date.parts (d : Date) : List Nat :=
  [d.year, d.month, d.day]

theorem Date.Valid.dayOfYear_lt {d : Date} (valid : d.Valid) : d.dayOfYear < yearLength d.year := by
  have positive := valid.day.1
  have month : ∑ month ∈ Ico 1 d.month, monthLength d.year month + monthLength d.year d.month =
      ∑ month ∈ Ico 1 (d.month + 1), monthLength d.year month :=
    (sum_Ico_succ_top valid.month.1 _).symm
  have months : ∑ month ∈ Ico 1 (d.month + 1), monthLength d.year month ≤ yearLength d.year := by
    refine sum_le_sum_of_subset ?_
    intro month member
    have bounds := mem_Ico.1 member
    exact mem_Icc.2 ⟨bounds.1, by have := valid.month.2; omega⟩
  have day := valid.day.2
  rw [Date.dayOfYear]
  omega

/-- A date that comes before another in the order of its parts has fewer days before it: all days of
a year come before the next year, and all days of a month before the next month. -/
theorem ordinal_lt_of_parts {a b : Date} (valid : a.Valid) (earlier : a.parts < b.parts) :
    a.ordinal < b.ordinal := by
  simp only [Date.parts, List.cons_lt_cons_iff, List.not_lt_nil, and_false, or_false] at earlier
  rcases earlier with year | ⟨year, month | ⟨month, day⟩⟩
  · have years : ∑ y ∈ range (a.year + 1), yearLength y ≤ ∑ y ∈ range b.year, yearLength y :=
      sum_le_sum_of_subset (range_mono year)
    have inYear := valid.dayOfYear_lt
    rw [sum_range_succ] at years
    rw [Date.ordinal, Date.ordinal]
    omega
  · have months : ∑ m ∈ Ico 1 (a.month + 1), monthLength b.year m ≤
        ∑ m ∈ Ico 1 b.month, monthLength b.year m :=
      sum_le_sum_of_subset (Ico_subset_Ico_right month)
    have inMonth := valid.day.2
    have positive := valid.day.1
    rw [sum_Ico_succ_top valid.month.1, ← year] at months
    rw [Date.ordinal, Date.ordinal, Date.dayOfYear, Date.dayOfYear, ← year]
    omega
  · have positive := valid.day.1
    rw [Date.ordinal, Date.ordinal, Date.dayOfYear, Date.dayOfYear, ← year, ← month]
    omega

theorem parts_le_of_ordinal {a b : Date} (valid : b.Valid) (ordered : a.ordinal ≤ b.ordinal) :
    a.parts ≤ b.parts := by
  by_contra later
  have reversed := ordinal_lt_of_parts valid (lt_of_not_ge later)
  omega

theorem eq_of_parts {a b : Date} (same : a.parts = b.parts) : a = b := by
  simp only [Date.parts, List.cons.injEq, and_true] at same
  obtain ⟨year, month, day⟩ := same
  cases a
  simp_all

/-- No two dates have the same number, since of their parts neither come first. -/
theorem eq_of_ordinal {a b : Date} (valid : a.Valid) (other : b.Valid)
    (same : a.ordinal = b.ordinal) : a = b :=
  eq_of_parts (le_antisymm (parts_le_of_ordinal other same.le) (parts_le_of_ordinal valid same.ge))

/-- A date is the one of its number. -/
theorem eq_ofDay {d : Date} (valid : d.Valid) {n : Nat} (number : d.dayNumber = n) :
    d = Date.ofDay n := by
  refine eq_of_ordinal valid (valid_ofDay n) ?_
  rw [dayNumber_eq] at number
  rw [ordinal_ofDay]
  omega

theorem parts_ofDay_lt {n later : Nat} (ordered : n < later) :
    (Date.ofDay n).parts < (Date.ofDay later).parts := by
  have ordinals : (Date.ofDay n).ordinal < (Date.ofDay later).ordinal := by
    rw [ordinal_ofDay, ordinal_ofDay]
    omega
  refine lt_of_le_of_ne (parts_le_of_ordinal (valid_ofDay later) ordinals.le) fun same => ?_
  rw [eq_of_parts same] at ordinals
  exact lt_irrefl _ ordinals

end KeyValueService.Time
