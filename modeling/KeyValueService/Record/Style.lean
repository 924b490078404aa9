import KeyValueService.Record.Rendering

/-!
# Styles

The form of rendering that a console or a log file is set to, by the words that a configuration
may use for it.
-/

namespace KeyValueService

open Text

/-- The form in which a console shows records. -/
inductive ConsoleStyle
  | plain
  | colored
  | json
  deriving DecidableEq, Repr, Inhabited

/-- The form in which a log file keeps records. -/
inductive FileStyle
  | line
  | json
  deriving DecidableEq, Repr, Inhabited

/-- A word that names no style, without blanks at its ends and in small letters. -/
inductive UnknownStyle
  | console (word : String)
  | file (word : String)
  deriving DecidableEq, Repr

/-- The wording of the refusal. -/
def UnknownStyle.message : UnknownStyle → String
  | .console word => "unknown console mode: " ++ quoted word
  | .file word => "unknown file format: " ++ quoted word

namespace ConsoleStyle

/-- The word for a style. -/
def name : ConsoleStyle → String
  | plain => "plain"
  | colored => "colored"
  | json => "json"

/-- Reads a style; blanks around the word and its case do not matter. -/
def read (text : String) : Except UnknownStyle ConsoleStyle :=
  match lowerAscii (trim text) with
  | "plain" => .ok plain
  | "colored" => .ok colored
  | "color" => .ok colored
  | "colour" => .ok colored
  | "json" => .ok json
  | word => .error (.console word)

/-- The record in this style. -/
def render : ConsoleStyle → Record → String
  | plain, r => r.plain
  | colored, r => r.colored
  | json, r => r.json

end ConsoleStyle

namespace FileStyle

/-- The word for a style. -/
def name : FileStyle → String
  | line => "line"
  | json => "json"

/-- Reads a style; blanks around the word and its case do not matter. -/
def read (text : String) : Except UnknownStyle FileStyle :=
  match lowerAscii (trim text) with
  | "line" => .ok line
  | "plain" => .ok line
  | "text" => .ok line
  | "json" => .ok json
  | word => .error (.file word)

/-- The record in this style. -/
def render : FileStyle → Record → String
  | line, r => r.plain
  | json, r => r.json

end FileStyle

end KeyValueService
