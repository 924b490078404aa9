import KeyValueService.Text.Number
import Std.Data.String.ToNat

/-!
# What a numeral says

A numeral is read from left to right and given up at the first character that is no digit or makes the
value too large. What it says does not depend on that: it has at least one digit, behind at most one
sign, and its digits write a number between the bounds. Main statements: `readNat_iff` for the counts of
requests, settings and addresses, `readInt_iff` for values with a sign.
-/

namespace KeyValueService.Text

/-- Digits that write a number, leading zeros among them. -/
structure Decimal (digits : List Char) (n : Nat) : Prop where
  nonempty : digits ≠ []
  each : ∀ c ∈ digits, c.isDigit = true
  value : Nat.ofDigitChars 10 digits 0 = n

/-- Every number is written by its usual digits. -/
theorem decimal_repr (n : Nat) : Decimal (Nat.repr n).toList n where
  nonempty := by simp
  each := fun _ => isDigit_of_mem_repr
  value := by
    rw [Nat.toList_repr]
    exact Nat.ofDigitChars_toDigits (by decide) (by decide)

/-- Digits are no signs. -/
theorem Decimal.unsigned {digits : List Char} {n : Nat} (decimal : Decimal digits n) {sign : Char}
    (noDigit : sign.isDigit = false) (rest : List Char) : digits ≠ sign :: rest := by
  rintro rfl
  rw [decimal.each sign List.mem_cons_self] at noDigit
  cases noDigit

/-- More digits make no smaller number. -/
theorem le_ofDigitChars (digits : List Char) (read : Nat) : read ≤ Nat.ofDigitChars 10 digits read := by
  induction digits generalizing read with
  | nil => exact Nat.le_refl read
  | cons c rest inductionHypothesis =>
    rw [Nat.ofDigitChars_cons]
    have further := inductionHypothesis (10 * read + (c.toNat - '0'.toNat))
    omega

/-- The value grows with each digit, so that a value within the bound at the end was never above it. -/
theorem readDigits_iff {bound read n : Nat} {excess : NumberError} {digits : List Char}
    (within : read ≤ bound) :
    readDigits bound excess read digits = .ok n ↔
      (∀ c ∈ digits, c.isDigit = true) ∧ Nat.ofDigitChars 10 digits read = n ∧ n ≤ bound := by
  induction digits generalizing read with
  | nil =>
    rw [readDigits, Nat.ofDigitChars_nil, Except.ok.injEq]
    constructor
    · rintro rfl
      exact ⟨fun c member => (nomatch member), rfl, within⟩
    · exact fun ⟨_, value, _⟩ => value
  | cons c rest inductionHypothesis =>
    rw [readDigits, Nat.ofDigitChars_cons, List.forall_mem_cons, Nat.mul_comm 10]
    cases digit : c.isDigit with
    | false => simp [digit?, digit]
    | true =>
      simp only [digit?, digit, if_true, true_and]
      by_cases fits : read * 10 + (c.toNat - '0'.toNat) ≤ bound
      · rw [if_pos fits, inductionHypothesis fits]
      · rw [if_neg fits]
        constructor
        · exact fun accepted => nomatch accepted
        · rintro ⟨-, rfl, below⟩
          exact absurd (Nat.le_trans (le_ofDigitChars rest _) below) fits

theorem readMagnitude_iff {bound n : Nat} {excess : NumberError} {digits : List Char} :
    readMagnitude bound excess digits = .ok n ↔ Decimal digits n ∧ n ≤ bound := by
  cases digits with
  | nil =>
    exact ⟨fun accepted => (nomatch accepted), fun ⟨decimal, _⟩ => absurd rfl decimal.nonempty⟩
  | cons c rest =>
    rw [readMagnitude.eq_2 bound excess _ (List.cons_ne_nil c rest), readDigits_iff (Nat.zero_le bound)]
    constructor
    · rintro ⟨each, value, below⟩
      exact ⟨⟨List.cons_ne_nil c rest, each, value⟩, below⟩
    · rintro ⟨decimal, below⟩
      exact ⟨decimal.each, decimal.value, below⟩

/-- What is read as a number from zero to the bound: digits, or a plus sign and digits. -/
theorem readNat_iff {bound n : Nat} {s : List Char} :
    readNat bound s = .ok n ↔
      (Decimal s n ∨ ∃ digits, s = '+' :: digits ∧ Decimal digits n) ∧ n ≤ bound := by
  unfold readNat
  split
  next =>
    constructor
    · exact fun accepted => nomatch accepted
    · rintro ⟨decimal | ⟨_, ⟨⟩, _⟩, -⟩
      exact absurd rfl decimal.nonempty
  next digits =>
    have signed : ∀ n, ¬Decimal ('+' :: digits) n :=
      fun n decimal => decimal.unsigned (by decide) digits rfl
    simp [readMagnitude_iff, signed]
  next unsigned =>
    have plain : ∀ digits, s ≠ '+' :: digits := unsigned
    simp [readMagnitude_iff, plain]

theorem readNat_repr {bound n : Nat} (le : n ≤ bound) : readNat bound (Nat.repr n).toList = .ok n :=
  readNat_iff.2 ⟨.inl (decimal_repr n), le⟩

/-- The same for what is made of the number. -/
theorem map_readMagnitude_iff {bound : Nat} {excess : NumberError} {digits : List Char}
    {value : Nat → Int} {z : Int} :
    (readMagnitude bound excess digits).map value = .ok z ↔
      ∃ n, Decimal digits n ∧ n ≤ bound ∧ value n = z := by
  have magnitude (n : Nat) : Decimal digits n ∧ n ≤ bound ↔ readMagnitude bound excess digits = .ok n :=
    readMagnitude_iff.symm
  simp only [← and_assoc, magnitude]
  cases readMagnitude bound excess digits <;> simp [Except.map]

/-- A text that writes a number with or without a sign. -/
inductive Signed : List Char → Int → Prop
  | plain {digits : List Char} {n : Nat} (decimal : Decimal digits n) : Signed digits n
  | plus {digits : List Char} {n : Nat} (decimal : Decimal digits n) : Signed ('+' :: digits) n
  | minus {digits : List Char} {n : Nat} (decimal : Decimal digits n) : Signed ('-' :: digits) (-n)

/-- What is read as a number with a sign: the bound below is one further from zero than that above. -/
theorem readInt_iff {bound : Nat} {s : List Char} {z : Int} :
    readInt bound s = .ok z ↔ Signed s z ∧ -(bound + 1 : Int) ≤ z ∧ z ≤ bound := by
  constructor
  · intro accepted
    unfold readInt at accepted
    split at accepted
    next => cases accepted
    next digits =>
      obtain ⟨n, decimal, below, rfl⟩ := map_readMagnitude_iff.1 accepted
      exact ⟨.plus decimal, by simp only [Int.ofNat_eq_natCast]; omega⟩
    next digits =>
      obtain ⟨n, decimal, below, rfl⟩ := map_readMagnitude_iff.1 accepted
      exact ⟨.minus decimal, by simp only [Int.ofNat_eq_natCast]; omega⟩
    next =>
      obtain ⟨n, decimal, below, rfl⟩ := map_readMagnitude_iff.1 accepted
      exact ⟨.plain decimal, by simp only [Int.ofNat_eq_natCast]; omega⟩
  · rintro ⟨signed, least, most⟩
    cases signed with
    | plus decimal => exact map_readMagnitude_iff.2 ⟨_, decimal, by omega, rfl⟩
    | minus decimal => exact map_readMagnitude_iff.2 ⟨_, decimal, by omega, rfl⟩
    | plain decimal =>
      rw [readInt.eq_4 bound s decimal.nonempty (decimal.unsigned (by decide))
        (decimal.unsigned (by decide))]
      exact map_readMagnitude_iff.2 ⟨_, decimal, by omega, rfl⟩

example : readInt maxSigned "-9223372036854775808".toList = .ok (-maxSigned - 1) := by rfl

example : readInt maxSigned "9223372036854775808".toList = .error .tooLarge := by rfl

/-- The two truth values are read from how they are shown, and from nothing else. -/
theorem readBool_iff {s : String} {b : Bool} : readBool s = .ok b ↔ s = toString b := by
  rw [readBool]
  cases b with
  | false => by_cases yes : s = "true" <;> simp [yes, toString]
  | true => by_cases yes : s = "true" <;> by_cases no : s = "false" <;> simp [yes, no, toString]

end KeyValueService.Text
