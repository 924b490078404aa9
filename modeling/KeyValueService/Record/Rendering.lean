import KeyValueService.Record.Basic

/-!
# Rendering of records

The four forms in which a record is written: a plain line, the same line with a coloured label, a
JSON object, and the line of a session's export, which leaves the session out. No form ends in a
line break, and a message is written as it is, line breaks included.
-/

namespace KeyValueService

namespace Level

/-- The terminal sequence that starts the colour of a level. -/
def color : Level → String
  | trace => "\x1b[2m"
  | debug => "\x1b[36m"
  | info => "\x1b[32m"
  | warn => "\x1b[33m"
  | error => "\x1b[31m"
  | fatal => "\x1b[1;31m"

/-- The label between the start of its colour and the end of all colours. -/
def colorLabel (level : Level) : String :=
  level.color ++ level.label ++ "\x1b[0m"

end Level

namespace Record

/-- The session between angle brackets and a space; nothing for a record without one. -/
def sessionTag (r : Record) : String :=
  match r.session with
  | some session => "<" ++ session ++ "> "
  | none => ""

/-- Time, label and thread number, the opening of every line form. -/
def head (r : Record) (label : String) : String :=
  "[" ++ r.time.stamp ++ "] [" ++ label ++ "] (t:" ++ toString r.producer ++ ") "

/-- The plain line. -/
def plain (r : Record) : String :=
  r.head r.level.label ++ r.sessionTag ++ r.message

/-- The line with its label in colour. -/
def colored (r : Record) : String :=
  r.head r.level.colorLabel ++ r.sessionTag ++ r.message

/-- The line of an export, which is about one session and does not repeat it. -/
def exported (r : Record) : String :=
  r.head r.level.label ++ r.message

/-- Escapes the quote and the backslash with a backslash and leaves all else. -/
def escapeJson (s : String) : String :=
  String.ofList (s.toList.flatMap fun c => if c = '\"' ∨ c = '\\' then ['\\', c] else [c])

/-- A quoted member of the object, its value already escaped. -/
def jsonMember (key value : String) : String :=
  "\"" ++ key ++ "\":\"" ++ value ++ "\""

/-- The JSON object; the session has a member only if there is one. -/
def json (r : Record) : String :=
  let session :=
    match r.session with
    | some session => "," ++ jsonMember "session" (escapeJson session)
    | none => ""
  "\x7b" ++ jsonMember "ts" r.time.stamp ++ ",\"lvl\":" ++ toString r.level.rank ++ "," ++
    jsonMember "tid" (toString r.producer) ++ session ++ "," ++
    jsonMember "msg" (escapeJson r.message) ++ "\x7d"

end Record

end KeyValueService
