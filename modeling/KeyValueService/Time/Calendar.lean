/-!
# The Gregorian calendar

Dates of the Gregorian calendar, extended before its introduction, and the date of a day given by
its number counted from 1970-01-01. Years are taken to start in March, so that the leap day comes
last; 400 years then have the same number of days, wherever they start.
-/

namespace KeyValueService.Time

/-- A day of the calendar; months and days count from one. -/
structure Date where
  year : Nat
  month : Nat
  day : Nat
  deriving DecidableEq, Repr

/-- Days of 400 years. -/
def daysPerEra : Nat := 146097

/-- Days from 0000-03-01, where the count of eras starts, to 1970-01-01. -/
def epochOffset : Nat := 719468

/-- The year, counted from March, in which a day of an era falls. -/
def yearOfEra (dayOfEra : Nat) : Nat :=
  (dayOfEra - dayOfEra / 1460 + dayOfEra / 36524 - dayOfEra / 146096) / 365

/-- The date of a day counted from 1970-01-01. -/
def Date.ofDay (n : Nat) : Date :=
  let era := (n + epochOffset) / daysPerEra
  let dayOfEra := (n + epochOffset) % daysPerEra
  let year := yearOfEra dayOfEra
  let dayOfYear := dayOfEra - (365 * year + year / 4 - year / 100)
  let month := (5 * dayOfYear + 2) / 153
  let day := dayOfYear - (153 * month + 2) / 5 + 1
  if month < 10 then ⟨year + era * 400, month + 3, day⟩
  else ⟨year + era * 400 + 1, month - 9, day⟩

end KeyValueService.Time
