/-!
# Numbers and truth values in text

Decimal numerals, read with a bound on the value, and the two truth values. A numeral is at least
one ASCII digit after an optional sign; leading zeros do not count towards the bound. Reading goes
from left to right and reports the first character at which it fails, so a value that grows too
large is reported before a foreign character further on.
-/

namespace KeyValueService.Text

/-- Why a text is not a numeral of the wanted kind. -/
inductive NumberError
  | empty
  | invalidDigit
  | tooLarge
  | tooSmall
  deriving DecidableEq, Repr

/-- The wording of a refusal. -/
def NumberError.message : NumberError → String
  | .empty => "cannot parse integer from empty string"
  | .invalidDigit => "invalid digit found in string"
  | .tooLarge => "number too large to fit in target type"
  | .tooSmall => "number too small to fit in target type"

/-- The value of an ASCII digit. -/
def digit? (c : Char) : Option Nat :=
  if c.isDigit then some (c.toNat - '0'.toNat) else none

/-- Reads the remaining digits after the value `read`, refusing values above `bound` with `excess`. -/
def readDigits (bound : Nat) (excess : NumberError) : Nat → List Char → Except NumberError Nat
  | read, [] => .ok read
  | read, c :: rest =>
    match digit? c with
    | none => .error .invalidDigit
    | some d =>
      if read * 10 + d ≤ bound then readDigits bound excess (read * 10 + d) rest
      else .error excess

/-- Reads at least one digit. -/
def readMagnitude (bound : Nat) (excess : NumberError) : List Char → Except NumberError Nat
  | [] => .error .invalidDigit
  | digits => readDigits bound excess 0 digits

/-- Reads a numeral from zero to `bound`; a plus sign may precede the digits. -/
def readNat (bound : Nat) : List Char → Except NumberError Nat
  | [] => .error .empty
  | '+' :: digits => readMagnitude bound .tooLarge digits
  | digits => readMagnitude bound .tooLarge digits

/-- Reads a numeral from `-(bound + 1)` to `bound`; either sign may precede the digits. -/
def readInt (bound : Nat) : List Char → Except NumberError Int
  | [] => .error .empty
  | '+' :: digits => (readMagnitude bound .tooLarge digits).map Int.ofNat
  | '-' :: digits => (readMagnitude (bound + 1) .tooSmall digits).map fun n => -(Int.ofNat n)
  | digits => (readMagnitude bound .tooLarge digits).map Int.ofNat

/-- The largest number of 8 bits. -/
def maxByte : Nat := 0xff

/-- The largest number of 16 bits. -/
def maxPort : Nat := 0xffff

/-- The largest number of 64 bits, which bounds every count and size. -/
def maxCount : Nat := 0xffffffffffffffff

/-- The largest signed number of 64 bits. -/
def maxSigned : Nat := 0x7fffffffffffffff

/-- Reads `true` or `false`, in small letters. -/
def readBool (s : String) : Except String Bool :=
  if s = "true" then .ok true
  else if s = "false" then .ok false
  else .error "provided string was not `true` or `false`"

/-- The decimal digits of a number, filled up with zeros on the left to the given width. -/
def padded (width n : Nat) : String :=
  let digits := toString n
  String.ofList (List.replicate (width - digits.length) '0') ++ digits

theorem isDigit_of_mem_repr {n : Nat} {c : Char} (member : c ∈ (Nat.repr n).toList) :
    c.isDigit = true := by
  rw [Nat.toList_repr] at member
  exact Nat.isDigit_of_mem_toDigits (by decide) (by decide) member

theorem not_mem_repr {c : Char} (noDigit : c.isDigit = false) (n : Nat) :
    c ∉ (Nat.repr n).toList := by
  intro member
  rw [isDigit_of_mem_repr member] at noDigit
  cases noDigit

theorem not_mem_padded {c : Char} (noDigit : c.isDigit = false) (width n : Nat) :
    c ∉ (padded width n).toList := by
  rw [padded, String.toList_append, String.toList_ofList, List.mem_append, not_or]
  refine ⟨fun zero => ?_, not_mem_repr noDigit n⟩
  rw [List.eq_of_mem_replicate zero] at noDigit
  cases noDigit

end KeyValueService.Text
