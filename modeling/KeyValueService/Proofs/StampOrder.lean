import KeyValueService.Proofs.DateReckoning
import KeyValueService.Time.Instant
import Mathlib.Data.List.Lex
import Mathlib.Data.String.Basic

/-!
# Stamps sort as text

Numbers of a fixed count of digits are in the same order as their texts (`places_lt`), and so are
lists of such numbers with fixed marks between them (`written_lt`). The stamp of an instant before
the year 10000 is such a text, of the list of its year, month, day, hour, minute, second and
millisecond, and these lists are in the order of the milliseconds that they show (`readings_lt`).
-/

namespace KeyValueService.Time

open Text

/-! ## Texts of fixed width -/

section FixedWidth

variable {α : Type} [LT α]

/-- The first difference decides, so what follows it does not matter. -/
theorem append_lt_append {front other : List α} (sameLength : front.length = other.length)
    (less : front < other) (rest tail : List α) : front ++ rest < other ++ tail := by
  induction front generalizing other with
  | nil =>
    rw [List.length_nil, eq_comm, List.length_eq_zero_iff] at sameLength
    rw [sameLength] at less
    exact absurd less (List.not_lt_nil _)
  | cons a front inductionHypothesis =>
    cases other with
    | nil => exact absurd less (List.not_lt_nil _)
    | cons b other =>
      rw [List.cons_append, List.cons_append, List.cons_lt_cons_iff]
      rcases List.cons_lt_cons_iff.1 less with first | ⟨same, later⟩
      · exact .inl first
      · exact .inr ⟨same, inductionHypothesis (Nat.succ.inj sameLength) later⟩

end FixedWidth

/-- The last decimal digits of a number, as many as there are places. -/
def places : Nat → Nat → List Char
  | 0, _ => []
  | width + 1, n => places width (n / 10) ++ [Nat.digitChar (n % 10)]

theorem length_places (width n : Nat) : (places width n).length = width := by
  induction width generalizing n with
  | zero => rfl
  | succ width inductionHypothesis =>
    rw [places, List.length_append, inductionHypothesis, List.length_singleton]

theorem digitChar_lt : ∀ e < 10, ∀ d < e, Nat.digitChar d < Nat.digitChar e := by
  decide

theorem places_lt {width n m : Nat} (ordered : n < m) (fits : m < 10 ^ width) :
    places width n < places width m := by
  induction width generalizing n m with
  | zero => omega
  | succ width inductionHypothesis =>
    rw [Nat.pow_succ] at fits
    rw [places, places]
    rcases Nat.lt_or_ge (n / 10) (m / 10) with front | same
    · have sameLength : (places width (n / 10)).length = (places width (m / 10)).length := by
        rw [length_places, length_places]
      exact append_lt_append sameLength (inductionHypothesis front (by omega)) _ _
    · have fronts : n / 10 = m / 10 := by omega
      rw [fronts]
      refine List.append_left_lt (List.cons_lt_cons_iff.2 (.inl ?_))
      exact digitChar_lt _ (by omega) _ (by omega)

theorem zeros_append_toDigits {width n : Nat} (fits : n < 10 ^ (width + 1)) :
    List.replicate (width + 1 - (Nat.toDigits 10 n).length) '0' ++ Nat.toDigits 10 n =
      places (width + 1) n := by
  induction width generalizing n with
  | zero =>
    have small : n < 10 := by simpa using fits
    rw [Nat.toDigits_of_lt_base small]
    simp only [places, Nat.mod_eq_of_lt small]
    rfl
  | succ width inductionHypothesis =>
    have front := inductionHypothesis (n := n / 10) (by rw [Nat.pow_succ] at fits; omega)
    rw [places, ← front]
    rcases Nat.lt_or_ge n 10 with small | large
    · have noFront : n / 10 = 0 := by omega
      rw [Nat.toDigits_of_lt_base small, noFront, Nat.toDigits_zero, Nat.mod_eq_of_lt small]
      simp only [List.length_singleton, Nat.add_sub_cancel, List.replicate_succ']
    · rw [Nat.toDigits_of_base_le (by decide) large, List.length_append, List.length_singleton,
        Nat.add_sub_add_right, List.append_assoc]

/-- A number of few digits is filled up with zeros to its places. -/
theorem toList_padded {width n : Nat} (positive : 0 < width) (fits : n < 10 ^ width) :
    (padded width n).toList = places width n := by
  obtain ⟨before, rfl⟩ := Nat.exists_eq_add_of_le' positive
  have digits : (toString n).toList = Nat.toDigits 10 n := by simp
  rw [← zeros_append_toDigits fits, padded, String.toList_append, String.toList_ofList,
    ← String.length_toList, digits]

theorem length_padded {width n : Nat} (positive : 0 < width) (fits : n < 10 ^ width) :
    (padded width n).toList.length = width := by
  rw [toList_padded positive fits, length_places]

theorem padded_lt {width n m : Nat} (positive : 0 < width) (ordered : n < m)
    (fits : m < 10 ^ width) : (padded width n).toList < (padded width m).toList := by
  rw [toList_padded positive (Nat.lt_trans ordered fits), toList_padded positive fits]
  exact places_lt ordered fits

/-- Numbers of fixed width, each behind a mark. -/
def written : List (String × Nat) → List Nat → List Char
  | (mark, width) :: layout, n :: numbers =>
    mark.toList ++ ((padded width n).toList ++ written layout numbers)
  | _, _ => []

/-- Whether numbers have no more digits than there are places for them. -/
def Fit (layout : List (String × Nat)) (numbers : List Nat) : Prop :=
  List.Forall₂ (fun field n => 0 < field.2 ∧ n < 10 ^ field.2) layout numbers

theorem length_written {layout : List (String × Nat)} {numbers : List Nat}
    (fit : Fit layout numbers) :
    (written layout numbers).length = (layout.map fun field => field.1.length + field.2).sum := by
  induction fit with
  | nil => rfl
  | cons first rest inductionHypothesis =>
    simp only [written, List.length_append, length_padded first.1 first.2, inductionHypothesis,
      List.map_cons, List.sum_cons, String.length_toList, Nat.add_assoc]

/-- The marks are the same, so the first number that differs decides. -/
theorem written_lt {layout : List (String × Nat)} {numbers others : List Nat}
    (fit : Fit layout numbers) (otherFit : Fit layout others) (less : numbers < others) :
    written layout numbers < written layout others := by
  induction fit generalizing others with
  | nil =>
    cases otherFit
    exact absurd less (List.not_lt_nil _)
  | cons first rest inductionHypothesis =>
    cases otherFit with
    | cons otherFirst otherRest =>
      simp only [written]
      refine List.append_left_lt ?_
      rcases List.cons_lt_cons_iff.1 less with smaller | ⟨same, later⟩
      · refine append_lt_append ?_ (padded_lt first.1 smaller otherFirst.2) _ _
        rw [length_padded first.1 first.2, length_padded otherFirst.1 otherFirst.2]
      · rw [same]
        exact List.append_left_lt (inductionHypothesis otherRest later)

/-! ## Stamps -/

/-- The fields of the stamp of a moment. -/
def stampLayout : List (String × Nat) :=
  [("", 4), ("-", 2), ("-", 2), (" ", 2), (":", 2), (":", 2), (".", 3)]

/-- What the stamp shows so many milliseconds after the epoch. -/
def readings (n : Nat) : List Nat :=
  (Date.ofDay (n / 1000 / 60 / 60 / 24)).parts ++
    [n / 1000 / 60 / 60 % 24, n / 1000 / 60 % 60, n / 1000 % 60, n % 1000]

/-- Either the larger unit tells two counts apart, or the rest does. -/
theorem div_lt_or_mod_lt {n later : Nat} (ordered : n < later) (unit : Nat) :
    n / unit < later / unit ∨ n / unit = later / unit ∧ n % unit < later % unit := by
  rcases Nat.lt_or_eq_of_le (Nat.div_le_div_right (c := unit) ordered.le) with less | same
  · exact .inl less
  · have whole := Nat.div_add_mod n unit
    have laterWhole := Nat.div_add_mod later unit
    rw [same] at whole
    exact .inr ⟨same, by omega⟩

theorem readings_lt {n later : Nat} (ordered : n < later) : readings n < readings later := by
  have sameLength : (Date.ofDay (n / 1000 / 60 / 60 / 24)).parts.length =
      (Date.ofDay (later / 1000 / 60 / 60 / 24)).parts.length := by
    simp only [Date.parts, List.length_cons]
  rw [readings, readings]
  rcases div_lt_or_mod_lt ordered 1000 with seconds | ⟨seconds, milliseconds⟩
  · rcases div_lt_or_mod_lt seconds 60 with minutes | ⟨minutes, second⟩
    · rcases div_lt_or_mod_lt minutes 60 with hours | ⟨hours, minute⟩
      · rcases div_lt_or_mod_lt hours 24 with days | ⟨days, hour⟩
        · exact append_lt_append sameLength (parts_ofDay_lt days) _ _
        · rw [days]
          refine List.append_left_lt ?_
          simp only [List.cons_lt_cons_iff, hour, true_or]
      · rw [hours]
        refine List.append_left_lt ?_
        simp only [List.cons_lt_cons_iff, minute, true_and, true_or, or_true]
    · rw [minutes]
      refine List.append_left_lt ?_
      simp only [List.cons_lt_cons_iff, second, true_and, true_or, or_true]
  · rw [seconds]
    refine List.append_left_lt ?_
    simp only [List.cons_lt_cons_iff, milliseconds, true_and, true_or, or_true]

/-- Milliseconds since the epoch, none before it. -/
def Instant.total (t : Instant) : Nat :=
  t.nanoseconds.toNat / 1000000

/-- Days from 1970 to 9999. -/
def fourDigitDays : Nat := 2932897

theorem ofDay_fourDigitDays : Date.ofDay fourDigitDays = ⟨10000, 1, 1⟩ := by
  decide

/-- Before the day on which it starts, the year 10000 is not reached: no month and day come before
its first ones. -/
theorem year_lt {n : Nat} (early : n < fourDigitDays) : (Date.ofDay n).year < 10000 := by
  have earlier := parts_ofDay_lt early
  have valid := valid_ofDay n
  have month := valid.month.1
  have day := valid.day.1
  rw [ofDay_fourDigitDays] at earlier
  simp only [Date.parts, List.cons_lt_cons_iff, List.not_lt_nil, and_false, or_false] at earlier
  omega

theorem fit_readings {n : Nat} (early : n / 1000 / 60 / 60 / 24 < fourDigitDays) :
    Fit stampLayout (readings n) := by
  have valid := valid_ofDay (n / 1000 / 60 / 60 / 24)
  have month : (Date.ofDay (n / 1000 / 60 / 60 / 24)).month < 100 :=
    Nat.lt_of_le_of_lt valid.month.2 (by decide)
  have day : (Date.ofDay (n / 1000 / 60 / 60 / 24)).day < 100 :=
    Nat.lt_of_le_of_lt (valid.day.2.trans (monthLength_le _ _)) (by decide)
  have hour : n / 1000 / 60 / 60 % 24 < 100 := by omega
  have minute : n / 1000 / 60 % 60 < 100 := by omega
  have second : n / 1000 % 60 < 100 := by omega
  have millisecond : n % 1000 < 1000 := by omega
  have filled : ∀ {width n : Nat}, n < 10 ^ (width + 1) → 0 < width + 1 ∧ n < 10 ^ (width + 1) :=
    fun fits => ⟨Nat.succ_pos _, fits⟩
  exact .cons (filled (year_lt early)) (.cons (filled month) (.cons (filled day)
    (.cons (filled hour) (.cons (filled minute) (.cons (filled second)
      (.cons (filled millisecond) .nil))))))

theorem toList_momentStamp (m : Moment) (milliseconds : Nat) :
    (m.stamp milliseconds).toList =
      written stampLayout (m.date.parts ++ [m.hour, m.minute, m.second, milliseconds]) := by
  simp only [Moment.stamp, stampLayout, Date.parts, written, List.cons_append, List.nil_append,
    List.append_nil, String.toList_append, List.append_assoc, String.toList_empty]

theorem stamp_of_moment {t : Instant} {moment : Moment}
    (reckoned : Moment.ofSeconds t.seconds = .ok moment) :
    t.stamp = moment.stamp t.milliseconds := by
  rw [Instant.stamp, reckoned]

theorem toList_stamp {t : Instant} (early : t.total / 1000 / 60 / 60 / 24 < fourDigitDays) :
    t.stamp.toList = written stampLayout (readings t.total) := by
  have seconds : t.seconds = t.total / 1000 := by
    rw [Instant.seconds, Instant.total]
    omega
  have milliseconds : t.milliseconds = t.total % 1000 := by
    rw [Instant.milliseconds, Instant.total]
    omega
  have small : t.total / 1000 < 2 ^ 64 := by
    rw [fourDigitDays] at early
    omega
  have fitsYear : (Date.ofDay (t.total / 1000 / 60 / 60 / 24)).year ≤ 2 ^ 31 - 1 := by
    have year := year_lt early
    omega
  have reckoned := Moment.ofSeconds_eq small
  rw [if_pos fitsYear, ← seconds] at reckoned
  rw [stamp_of_moment reckoned, toList_momentStamp, milliseconds, seconds, readings]

theorem early_of_before {t : Instant}
    (early : t.nanoseconds < (⟨10000, 1, 1⟩ : Date).dayNumber * 86400 * 10 ^ 9) :
    t.total / 1000 / 60 / 60 / 24 < fourDigitDays := by
  rw [← ofDay_fourDigitDays, dayNumber_ofDay, fourDigitDays] at early
  rw [Instant.total, fourDigitDays]
  omega

/-- Two instants before the year 10000, the first not after the second, have stamps of 23
characters, of which the first is not after the second in the order of texts, and they have the same
stamp exactly if they are in the same millisecond, those before the epoch counting as the epoch. -/
theorem stamps_sorted (t u : Instant) (ordered : t.nanoseconds ≤ u.nanoseconds)
    (early : u.nanoseconds < (⟨10000, 1, 1⟩ : Date).dayNumber * 86400 * 10 ^ 9) :
    t.stamp.length = 23 ∧ u.stamp.length = 23 ∧ t.stamp ≤ u.stamp ∧
      (t.stamp = u.stamp ↔
        t.nanoseconds.toNat / 1000000 = u.nanoseconds.toNat / 1000000) := by
  have shown := toList_stamp (early_of_before (Int.lt_of_le_of_lt ordered early))
  have laterShown := toList_stamp (early_of_before early)
  have fit := fit_readings (early_of_before (Int.lt_of_le_of_lt ordered early))
  have laterFit := fit_readings (early_of_before early)
  have totals : t.total ≤ u.total := Nat.div_le_div_right (Int.toNat_le_toNat ordered)
  refine ⟨?_, ?_, ?_⟩
  · rw [← String.length_toList, shown, length_written fit]
    rfl
  · rw [← String.length_toList, laterShown, length_written laterFit]
    rfl
  · rcases Nat.lt_or_eq_of_le totals with less | same
    · have before : t.stamp < u.stamp := by
        rw [String.lt_iff_toList_lt, shown, laterShown]
        exact written_lt fit laterFit (readings_lt less)
      exact ⟨before.le, fun equal => absurd equal before.ne, fun equal => absurd equal less.ne⟩
    · have equal : t.stamp = u.stamp := by
        rw [← String.toList_inj, shown, laterShown, same]
      exact ⟨equal.le, fun _ => same, fun _ => equal⟩

/-- The last nanosecond of a century and the next one differ in all fields of the stamp. -/
theorem stamps_sorted_at_midnight :
    let t : Instant := ⟨946684799999999999⟩
    let u : Instant := ⟨946684800000000000⟩
    t.nanoseconds ≤ u.nanoseconds ∧
      u.nanoseconds < (⟨10000, 1, 1⟩ : Date).dayNumber * 86400 * 10 ^ 9 ∧
        t.stamp.length = 23 ∧ u.stamp.length = 23 ∧ t.stamp ≤ u.stamp ∧ t.stamp ≠ u.stamp := by
  intro t u
  have ordered : t.nanoseconds ≤ u.nanoseconds := by decide
  have early : u.nanoseconds < (⟨10000, 1, 1⟩ : Date).dayNumber * 86400 * 10 ^ 9 := by
    rw [← ofDay_fourDigitDays, dayNumber_ofDay]
    decide
  obtain ⟨length, laterLength, sorted, same⟩ := stamps_sorted t u ordered early
  refine ⟨ordered, early, length, laterLength, sorted, fun equal => ?_⟩
  exact absurd (same.1 equal) (by decide)

end KeyValueService.Time
