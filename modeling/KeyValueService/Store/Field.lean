/-!
# Fields of a stored line

Keys and values are written with the characters that would break a line or a field escaped: the
backslash, the tab, the line feed and the carriage return. Reading back accepts exactly those four
escapes.
-/

namespace KeyValueService.Store

/-- What stands for one character in a field. -/
def escapeChar (c : Char) : List Char :=
  if c = '\\' then ['\\', '\\']
  else if c = '\t' then ['\\', 't']
  else if c = '\n' then ['\\', 'n']
  else if c = '\r' then ['\\', 'r']
  else [c]

/-- The written form of a text. -/
def escape (s : List Char) : List Char :=
  s.flatMap escapeChar

/-- The character that a letter after a backslash stands for. -/
def escaped? (c : Char) : Option Char :=
  if c = '\\' then some '\\'
  else if c = 't' then some '\t'
  else if c = 'n' then some '\n'
  else if c = 'r' then some '\r'
  else none

/-- The text of a written form. A backslash with another letter after it, or none, is refused. -/
def unescape : List Char → Option (List Char)
  | [] => some []
  | ['\\'] => none
  | '\\' :: c :: rest =>
    match escaped? c with
    | none => none
    | some plain => (unescape rest).map (plain :: ·)
  | c :: rest => (unescape rest).map (c :: ·)

end KeyValueService.Store
