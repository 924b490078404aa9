import KeyValueService.Time.Calendar

/-!
# Moments

The date and the time of day of a second counted from 1970-01-01 00:00:00 UTC. They are reckoned in
machine integers: a value on the way to the date has to fit 128 bits with a sign, the year 32 bits
with a sign, and the other parts 32 bits without one. What does not fit is refused and never cut.
-/

namespace KeyValueService.Time

/-- A date with a time of day. -/
structure Moment where
  date : Date
  hour : Nat
  minute : Nat
  second : Nat
  deriving DecidableEq, Repr

/-- What does not fit its integers: a part of the date, or a value on the way to it. -/
inductive Misfit
  | year
  | month
  | day
  | intermediate
  deriving DecidableEq, Repr

/-- Machine integers of one kind, given by the least and the largest of them. -/
structure Width where
  least : Int
  largest : Int

namespace Width

/-- Integers of 32 bits without a sign. -/
def unsigned32 : Width := ⟨0, 0xffffffff⟩

/-- Integers of 32 bits, one of them for the sign. -/
def signed32 : Width := ⟨-0x80000000, 0x7fffffff⟩

/-- Integers of 128 bits, one of them for the sign. -/
def signed128 : Width :=
  ⟨-0x80000000000000000000000000000000, 0x7fffffffffffffffffffffffffffffff⟩

/-- The value, if it is one of the integers. -/
def fit (w : Width) (what : Misfit) (n : Int) : Except Misfit Int :=
  if w.least ≤ n ∧ n ≤ w.largest then .ok n else .error what

end Width

/-- A value on the way to a date. -/
def wide (n : Int) : Except Misfit Int :=
  Width.signed128.fit .intermediate n

namespace Moment

/-- The era of a day counted from where eras start, and the day of the era. Quotients are cut towards
zero, which for a day before the start is the wrong way; such a day is moved first. -/
def reckonEra (day : Int) : Except Misfit (Int × Int) := do
  let moved ← if 0 ≤ day then .ok day else wide (day - 146096)
  let era ← wide (moved.tdiv 146097)
  let start ← wide (era * 146097)
  let dayOfEra ← wide (day - start)
  return (era, dayOfEra)

/-- The year of an era, counted from March, in which a day of the era falls. -/
def reckonYear (dayOfEra : Int) : Except Misfit Int := do
  let fourYears ← wide (dayOfEra.tdiv 1460)
  let centuries ← wide (dayOfEra.tdiv 36524)
  let eras ← wide (dayOfEra.tdiv 146096)
  let lessFourYears ← wide (dayOfEra - fourYears)
  let moreCenturies ← wide (lessFourYears + centuries)
  let ordinaryDays ← wide (moreCenturies - eras)
  wide (ordinaryDays.tdiv 365)

/-- The day of a year of an era, both counted from March. -/
def reckonDayOfYear (dayOfEra year : Int) : Except Misfit Int := do
  let ordinaryDays ← wide (365 * year)
  let withLeapDays ← wide (ordinaryDays + (← wide (year.tdiv 4)))
  let daysBefore ← wide (withLeapDays - (← wide (year.tdiv 100)))
  wide (dayOfEra - daysBefore)

/-- The month, from zero in March, and the day of the month, from one, of a day of a year. -/
def reckonMonth (dayOfYear : Int) : Except Misfit (Int × Int) := do
  let fifths ← wide ((← wide (5 * dayOfYear)) + 2)
  let month ← wide (fifths.tdiv 153)
  let fifthsBefore ← wide ((← wide (153 * month)) + 2)
  let daysBefore ← wide (fifthsBefore.tdiv 5)
  let day ← wide ((← wide (dayOfYear - daysBefore)) + 1)
  return (month, day)

/-- The year and the month of a calendar whose years start in January. -/
def reckonJanuary (era year month : Int) : Except Misfit (Int × Int) := do
  let year ← wide (year + (← wide (era * 400)))
  let month ← wide (month + (if month < 10 then 3 else -9))
  let year ← wide (year + (if month ≤ 2 then 1 else 0))
  return (year, month)

/-- The date with the given parts. -/
def fitDate (year month day : Int) : Except Misfit Date := do
  let year ← Width.signed32.fit .year year
  let month ← Width.unsigned32.fit .month month
  let day ← Width.unsigned32.fit .day day
  return ⟨year.toNat, month.toNat, day.toNat⟩

/-- The date of a day counted from 1970-01-01. -/
def reckonDate (day : Nat) : Except Misfit Date := do
  let (era, dayOfEra) ← reckonEra (← wide (day + epochOffset))
  let yearOfEra ← reckonYear dayOfEra
  let dayOfYear ← reckonDayOfYear dayOfEra yearOfEra
  let (monthOfYear, day) ← reckonMonth dayOfYear
  let (year, month) ← reckonJanuary era yearOfEra monthOfYear
  fitDate year month day

/-- A part of the time of day. -/
def reckonPart (n : Nat) : Except Misfit Nat := do
  let part ← Width.unsigned32.fit .intermediate n
  return part.toNat

/-- The date and the time of day of a second. -/
def ofSeconds (s : Nat) : Except Misfit Moment := do
  let second ← reckonPart (s % 60)
  let minute ← reckonPart (s / 60 % 60)
  let hour ← reckonPart (s / 60 / 60 % 24)
  let date ← reckonDate (s / 60 / 60 / 24)
  return ⟨date, hour, minute, second⟩

end Moment

end KeyValueService.Time
