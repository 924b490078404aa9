import KeyValueService.Proofs.CalendarDays
import KeyValueService.Time.Moment

/-!
# Reckoning a date in machine integers

Every second that 64 bits can count has its date reckoned without a value leaving the integers that
it is kept in, up to the year: that one has to fit 32 bits with a sign. So the only refusal is that
of the year, and it comes exactly for the dates whose year is too large; every other second gets the
date whose number is that of its day, and the time of day that makes up the rest (`moment_exact`).

The steps of the reckoning are those of `Date.ofDay`, which has natural numbers of any size and
differences cut at zero. Each step gets its law with the bounds on its argument that it needs.
-/

namespace KeyValueService.Time

theorem ok_bind {ε α β : Type} (a : α) (f : α → Except ε β) : (Except.ok a >>= f) = f a :=
  pure_bind a f

/-- All values on the way to a date stay far away from the bounds of 128 bits. -/
theorem wide_of_small {n : Int} (lower : -2 ^ 65 ≤ n) (upper : n < 2 ^ 65) : wide n = .ok n := by
  rw [wide, Width.fit, if_pos]
  simp only [Width.signed128]
  omega

theorem fit_unsigned {n : Nat} {what : Misfit} (small : n < 2 ^ 16) :
    Width.unsigned32.fit what n = .ok (n : Int) := by
  rw [Width.fit, if_pos]
  simp only [Width.unsigned32]
  omega

namespace Moment

theorem reckonEra_eq {day : Nat} (small : day < 2 ^ 64) :
    reckonEra day = .ok (((day / daysPerEra : Nat) : Int), ((day % daysPerEra : Nat) : Int)) := by
  simp (disch := omega) only [reckonEra, Int.natCast_nonneg, if_true, ok_bind,
    Int.tdiv_eq_ediv_of_nonneg, wide_of_small]
  rw [daysPerEra]
  congr 2
  omega

theorem reckonYear_eq {dayOfEra : Nat} (inEra : dayOfEra < daysPerEra) :
    reckonYear dayOfEra = .ok (yearOfEra dayOfEra : Int) := by
  rw [daysPerEra] at inEra
  simp (disch := omega) only [reckonYear, Int.tdiv_eq_ediv_of_nonneg, wide_of_small, ok_bind]
  rw [yearOfEra]
  congr 1
  omega

theorem reckonDayOfYear_eq {dayOfEra : Nat} (inEra : dayOfEra < daysPerEra) :
    reckonDayOfYear dayOfEra (yearOfEra dayOfEra) = .ok (marchDay dayOfEra : Int) := by
  obtain ⟨known, first, -⟩ := yearOfEra_bounds inEra
  rw [marchDay]
  generalize yearOfEra dayOfEra = year at *
  rw [daysPerEra] at inEra
  rw [marchDays] at *
  simp (disch := omega) only [reckonDayOfYear, Int.tdiv_eq_ediv_of_nonneg, wide_of_small, ok_bind]
  congr 1
  omega

theorem reckonMonth_eq {dayOfYear : Nat} (inYear : dayOfYear < 366) :
    reckonMonth dayOfYear = .ok ((marchMonth dayOfYear : Int),
      ((dayOfYear - marchMonthDays (marchMonth dayOfYear) + 1 : Nat) : Int)) := by
  obtain ⟨-, first, -⟩ := marchMonth_bounds inYear
  have sameMonth : (5 * (dayOfYear : Int) + 2) / 153 = marchMonth dayOfYear := by
    rw [marchMonth]
    norm_cast
  simp (disch := omega) only [reckonMonth, Int.tdiv_eq_ediv_of_nonneg, wide_of_small, ok_bind]
  rw [sameMonth]
  generalize marchMonth dayOfYear = month at *
  have day : (dayOfYear : Int) - (153 * (month : Int) + 2) / 5 + 1 =
      (dayOfYear - marchMonthDays month + 1 : Nat) := by
    rw [marchMonthDays] at *
    omega
  rw [day]
  rfl

theorem reckonJanuary_eq {era year month : Nat} (small : era < 2 ^ 50) (known : year < 400)
    (inYear : month < 12) (day : Nat) :
    reckonJanuary era year month = .ok (((marchDate (year + era * 400) month day).year : Int),
      ((marchDate (year + era * 400) month day).month : Int)) := by
  rw [marchDate]
  split
  next early =>
    have months : (month : Int) < 10 := by omega
    have spring : ¬(month : Int) + 3 ≤ 2 := by omega
    have sameYear : (year : Int) + era * 400 + 0 = (year + era * 400 : Nat) := by omega
    simp (disch := omega) only [reckonJanuary, months, if_true, wide_of_small, ok_bind, spring,
      if_false]
    rw [sameYear]
    rfl
  next late =>
    have months : ¬(month : Int) < 10 := by omega
    have winter : (month : Int) + -9 ≤ 2 := by omega
    have sameYear : (year : Int) + era * 400 + 1 = (year + era * 400 + 1 : Nat) := by omega
    have sameMonth : (month : Int) + -9 = (month - 9 : Nat) := by omega
    simp (disch := omega) only [reckonJanuary, months, if_false, wide_of_small, ok_bind, winter,
      if_true]
    rw [sameYear, sameMonth]
    rfl

theorem day_marchDate (year month day : Nat) : (marchDate year month day).day = day := by
  rw [marchDate]
  split <;> rfl

/-- Of the parts of a date that there is, only the year can be too large. -/
theorem fitDate_eq {d : Date} (valid : d.Valid) :
    fitDate d.year d.month d.day = if d.year ≤ 2 ^ 31 - 1 then .ok d else .error .year := by
  have month : Width.unsigned32.fit .month d.month = .ok (d.month : Int) :=
    fit_unsigned (Nat.lt_of_le_of_lt valid.month.2 (by decide))
  have shortMonth : d.day ≤ 31 := valid.day.2.trans (monthLength_le d.year d.month)
  have day : Width.unsigned32.fit .day d.day = .ok (d.day : Int) :=
    fit_unsigned (Nat.lt_of_le_of_lt shortMonth (by decide))
  have year : Width.signed32.fit .year d.year =
      if d.year ≤ 2 ^ 31 - 1 then .ok (d.year : Int) else .error .year := by
    refine if_congr ?_ rfl rfl
    simp only [Width.signed32]
    omega
  rw [fitDate, year, month, day]
  split
  next fits => rfl
  next large => rfl

/-- The reckoning of a date is that of `Date.ofDay`, but for a year that does not fit. -/
theorem reckonDate_eq {n : Nat} (small : n < 2 ^ 63) :
    reckonDate n =
      if (Date.ofDay n).year ≤ 2 ^ 31 - 1 then .ok (Date.ofDay n) else .error .year := by
  obtain ⟨day, sameDay⟩ : ∃ day, n + epochOffset = day := ⟨_, rfl⟩
  have few : day < 2 ^ 64 := by
    rw [epochOffset] at sameDay
    omega
  have inEra := Nat.mod_lt day (by decide : 0 < daysPerEra)
  have inYear := marchDay_lt_longest inEra
  have eras : day / daysPerEra < 2 ^ 50 := by
    rw [daysPerEra]
    omega
  have start : wide (n + epochOffset) = .ok (day : Int) := by
    rw [wide_of_small (by omega) (by omega), ← sameDay, Nat.cast_add]
  have date := ofDay_eq n
  simp only [sameDay] at date
  have dayOfMonth := congrArg Date.day date
  rw [day_marchDate] at dayOfMonth
  have january := reckonJanuary_eq eras (yearOfEra_bounds inEra).1 (marchMonth_bounds inYear).1
    (marchDay (day % daysPerEra) - marchMonthDays (marchMonth (marchDay (day % daysPerEra))) + 1)
  rw [← date] at january
  simp only [reckonDate, start, ok_bind, reckonEra_eq few, reckonYear_eq inEra,
    reckonDayOfYear_eq inEra, reckonMonth_eq inYear, january, ← dayOfMonth]
  exact fitDate_eq (valid_ofDay n)

theorem reckonPart_eq {n : Nat} (small : n < 60) : reckonPart n = .ok n := by
  rw [reckonPart, fit_unsigned (Nat.lt_trans small (by decide))]
  rfl

theorem ofSeconds_eq {s : Nat} (small : s < 2 ^ 64) :
    ofSeconds s =
      if (Date.ofDay (s / 60 / 60 / 24)).year ≤ 2 ^ 31 - 1 then
        .ok ⟨Date.ofDay (s / 60 / 60 / 24), s / 60 / 60 % 24, s / 60 % 60, s % 60⟩
      else .error .year := by
  have second := reckonPart_eq (Nat.mod_lt s (by decide : 0 < 60))
  have minute := reckonPart_eq (Nat.mod_lt (s / 60) (by decide : 0 < 60))
  have hour : s / 60 / 60 % 24 < 60 := by omega
  simp only [ofSeconds, second, minute, reckonPart_eq hour, ok_bind]
  rw [reckonDate_eq (by omega)]
  split
  next fits => rfl
  next large => rfl

end Moment

/-- A second that 64 bits can count lies on a day with exactly one date. If the year of the date is
at most 2³¹ - 1, the reckoning gives this date with the time of day; if not, the year is what does
not fit. The month, the day and the values on the way always fit. -/
theorem moment_exact (s : UInt64) :
    ∃ date : Date,
      (∀ other : Date, other.Valid ∧ other.dayNumber = (s.toNat / 86400 : Nat) ↔ other = date) ∧
        if date.year ≤ 2 ^ 31 - 1 then
          ∃ hour minute second, Moment.ofSeconds s.toNat = .ok ⟨date, hour, minute, second⟩ ∧
            hour < 24 ∧ minute < 60 ∧ second < 60 ∧
              hour * 3600 + minute * 60 + second = s.toNat % 86400
        else Moment.ofSeconds s.toNat = .error .year := by
  have day : s.toNat / 86400 = s.toNat / 60 / 60 / 24 := by omega
  rw [day]
  refine ⟨Date.ofDay (s.toNat / 60 / 60 / 24), ?_, ?_⟩
  · intro other
    constructor
    · rintro ⟨valid, number⟩
      exact eq_ofDay valid number
    · rintro rfl
      exact ⟨valid_ofDay _, dayNumber_ofDay _⟩
  · rw [Moment.ofSeconds_eq s.toNat_lt]
    split
    · exact ⟨_, _, _, rfl, by omega, by omega, by omega, by omega⟩
    · rfl

/-- A leap day. -/
example : Moment.ofSeconds 1709210096 = .ok ⟨⟨2024, 2, 29⟩, 12, 34, 56⟩ := by
  decide +kernel

end KeyValueService.Time
