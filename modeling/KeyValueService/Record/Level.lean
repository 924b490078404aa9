import KeyValueService.Text.Blank
import KeyValueService.Text.Number
import KeyValueService.Text.Quoted

/-!
# Levels

The six degrees of severity of a log record, in ascending order, with their names and the two ways
of writing one: by its name or by its number.
-/

namespace KeyValueService

open Text

/-- How severe a record is. -/
inductive Level
  | trace
  | debug
  | info
  | warn
  | error
  | fatal
  deriving DecidableEq, Repr, Inhabited

namespace Level

/-- The number of a level; a more severe level has a larger one. -/
def rank : Level → Nat
  | trace => 0
  | debug => 1
  | info => 2
  | warn => 3
  | error => 4
  | fatal => 5

/-- The level with a given number. -/
def ofRank? : Nat → Option Level
  | 0 => some trace
  | 1 => some debug
  | 2 => some info
  | 3 => some warn
  | 4 => some error
  | 5 => some fatal
  | _ => none

/-- Levels are ordered by severity. -/
instance : LE Level := ⟨fun a b => a.rank ≤ b.rank⟩

instance : DecidableLE Level := fun a b => inferInstanceAs (Decidable (a.rank ≤ b.rank))

/-- The name of a level, in capitals. -/
def name : Level → String
  | trace => "TRACE"
  | debug => "DEBUG"
  | info => "INFO"
  | warn => "WARN"
  | error => "ERROR"
  | fatal => "FATAL"

/-- The name filled up on the left to five characters, so that labels line up. -/
def label : Level → String
  | info => " INFO"
  | warn => " WARN"
  | level => level.name

/-- The level with a name in small letters; a warning has two names. -/
def ofName? (name : String) : Option Level :=
  match name with
  | "trace" => some trace
  | "debug" => some debug
  | "info" => some info
  | "warn" => some warn
  | "warning" => some warn
  | "error" => some error
  | "fatal" => some fatal
  | _ => none

theorem ofRank?_rank (level : Level) : ofRank? level.rank = some level := by
  cases level <;> rfl

end Level

/-- A text that names no level, as it was given. -/
structure UnknownLevel where
  text : String
  deriving DecidableEq, Repr

/-- The wording of the refusal. -/
def UnknownLevel.message (e : UnknownLevel) : String :=
  "unknown log level: " ++ quoted e.text

/-- Reads a level, with blanks around it ignored: a number of one byte is taken as a rank, anything
else as a name in either case. -/
def Level.read (text : String) : Except UnknownLevel Level :=
  let word := trim text
  let level? :=
    match readNat maxByte word.toList with
    | .ok rank => Level.ofRank? rank
    | .error _ => Level.ofName? (lowerAscii word)
  match level? with
  | some level => .ok level
  | none => .error ⟨text⟩

end KeyValueService
