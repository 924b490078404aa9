import KeyValueService.Disk.FileSystem
import KeyValueService.Table
import KeyValueService.Text.Blank
import KeyValueService.Text.Lines
import KeyValueService.Text.Number
import KeyValueService.Text.Quoted

/-!
# Settings

A settings text consists of lines: comments, section headers in brackets, and assignments of a value
to a key. Assignments before the first header are global. Reading stops at the first malformed line
and tells what is wrong with it; otherwise every key has the value assigned to it last.
-/

namespace KeyValueService

open Text

/-- What is wrong with a malformed line. -/
inductive LineFault
  | unterminatedHeader
  | emptyHeader
  | noAssignment
  | missingKey
  deriving DecidableEq, Repr

/-- The wording of a fault. -/
def LineFault.message : LineFault → String
  | .unterminatedHeader => "unterminated section header"
  | .emptyHeader => "empty section name"
  | .noAssignment => "expected `key = value`"
  | .missingKey => "missing key"

/-- Why settings cannot be had. -/
inductive SettingsError
  | unreadable (path : String) (cause : DiskError)
  | malformed (line : Nat) (text : String) (fault : LineFault)
  | invalid (group key value reason : String)
  deriving DecidableEq, Repr

/-- The wording of an error. -/
def SettingsError.message : SettingsError → String
  | .unreadable path cause => "error reading file " ++ path ++ ": " ++ cause.message
  | .malformed line text fault =>
    "line " ++ toString line ++ ": " ++ fault.message ++ ": " ++ quoted text
  | .invalid group key value reason =>
    "invalid value " ++ quoted value ++ " for [" ++ group ++ "] " ++ key ++ ": " ++ reason

/-- What a line says. -/
inductive SettingsLine
  | nothing
  | header (name : String)
  | assignment (key value : String)
  deriving DecidableEq, Repr

/-- Reads a header from what follows its opening bracket. -/
def SettingsLine.readHeader (s : List Char) : Except LineFault SettingsLine :=
  if s.getLast? = some ']' then
    match trimChars s.dropLast with
    | [] => .error .emptyHeader
    | name => .ok (.header (String.ofList name))
  else .error .unterminatedHeader

/-- Reads an assignment. The value may stand in double quotes, which are not part of it. -/
def SettingsLine.readAssignment (s : List Char) : Except LineFault SettingsLine :=
  match cut? (· == '=') s with
  | none => .error .noAssignment
  | some (before, after) =>
    match trimChars before with
    | [] => .error .missingKey
    | key =>
      let value := stripWhile (· == '\"') (trimChars after)
      .ok (.assignment (String.ofList key) (String.ofList value))

/-- Reads a line without blanks at its ends. -/
def SettingsLine.read : List Char → Except LineFault SettingsLine
  | [] => .ok .nothing
  | '#' :: _ => .ok .nothing
  | '[' :: rest => readHeader rest
  | s => readAssignment s

/-- Values by key, global ones and those of each section. -/
structure Settings where
  globals : Table String
  sections : Table (Table String)

namespace Settings

/-- Settings without any value. -/
def empty : Settings := ⟨.empty, .empty⟩

/-- Gives a key a value, in a section or globally. -/
def assign (s : Settings) (group : Option String) (key value : String) : Settings :=
  match group with
  | none => { s with globals := s.globals.insert key value }
  | some name =>
    { s with
      sections := s.sections.insert name (((s.sections.find? name).getD .empty).insert key value) }

/-- Reads numbered lines one after the other, in the section of the header last read. -/
def readLines (group : Option String) (s : Settings) :
    List (Nat × List Char) → Except SettingsError Settings
  | [] => .ok s
  | (number, line) :: rest =>
    match SettingsLine.read (trimChars line) with
    | .error fault => .error (.malformed number (String.ofList (trimChars line)) fault)
    | .ok .nothing => readLines group s rest
    | .ok (.header name) => readLines (some name) s rest
    | .ok (.assignment key value) => readLines group (s.assign group key value) rest

/-- Reads a settings text. -/
def read (text : String) : Except SettingsError Settings :=
  readLines none empty (numberedLines text)

/-- Reads a settings file. -/
def load (fs : FileSystem) (path : String) : Except SettingsError Settings :=
  match fs.readText ⟨path⟩ with
  | .error cause => .error (.unreadable path cause)
  | .ok text => read text

/-- The value of a key of a section. -/
def get? (s : Settings) (group key : String) : Option String :=
  (s.sections.find? group).bind (·.find? key)

/-- The value of a global key. -/
def getGlobal? (s : Settings) (key : String) : Option String :=
  s.globals.find? key

/-- The value of a key of a section, unless it is empty. -/
def getFilled? (s : Settings) (group key : String) : Option String :=
  (s.get? group key).filter (· ≠ "")

/-- The value of a key of a section or else of the global key, neither counted if it is empty. -/
def inherited? (s : Settings) (group key : String) : Option String :=
  (s.getFilled? group key).or ((s.getGlobal? key).filter (· ≠ ""))

/-- The value of a key of a section, or else of the global key, or else the default. -/
def getD (s : Settings) (group key default : String) : String :=
  ((s.get? group key).or (s.getGlobal? key)).getD default

/-- The same with empty values passed over. -/
def getFilledD (s : Settings) (group key default : String) : String :=
  (s.inherited? group key).getD default

/-- The value of a key read by `reader`, whose refusal gives the reason of the error; the default if
there is no value to read. -/
def readD {α ε : Type} (s : Settings) (reader : String → Except ε α) (reason : ε → String)
    (group key : String) (default : α) : Except SettingsError α :=
  match s.inherited? group key with
  | none => .ok default
  | some value =>
    match reader value with
    | .ok a => .ok a
    | .error e => .error (.invalid group key value (reason e))

/-- A count of a section; see `readD`. -/
def readCountD (s : Settings) (group key : String) (default : Nat) : Except SettingsError Nat :=
  s.readD (fun value => readNat maxCount value.toList) NumberError.message group key default

end Settings

end KeyValueService
