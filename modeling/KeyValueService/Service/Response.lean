/-!
# Responses

What the service answers to a request: a line, a block of lines that ends with a line of its own, or
a farewell, after which the connection is closed. The text of responses is a sequence of lines, and a
client that knows what it asked for can tell where each response ends.
-/

namespace KeyValueService

/-- An answer of the service. -/
inductive Response
  | line (text : String)
  | block (lines : List String)
  | farewell
  deriving DecidableEq, Repr, Inhabited

namespace Response

/-- The answer to a request that was carried out and has no other answer. -/
def ok : Response :=
  line "OK"

/-- The answer to a request about a key that has no value. -/
def notFound : Response :=
  line "NOT_FOUND"

/-- The answer to a request that was refused or failed. -/
def error (reason : String) : Response :=
  line ("ERROR: " ++ reason)

/-- Whether the connection is closed after the answer. -/
def closes : Response → Bool
  | farewell => true
  | _ => false

/-- The line that ends a block. -/
def terminator : String := "END"

/-- The lines of an answer. -/
def lines : Response → List String
  | line text => [text]
  | block lines => lines ++ [terminator]
  | farewell => ["BYE"]

/-- The text sent to the client, each line with a line feed. -/
def text (r : Response) : String :=
  String.join (r.lines.map (· ++ "\n"))

end Response

end KeyValueService
