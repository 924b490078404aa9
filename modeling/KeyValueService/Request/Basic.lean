import KeyValueService.Record.Level
import KeyValueService.Text.Pieces

/-!
# Requests

What a client can ask for in one line: a verb, in either case, and its arguments. Keys, tokens and
session names are words without blanks; a value is everything after the one blank behind the key,
to the end of the line. Reading refuses a line with the first fault it finds.
-/

namespace KeyValueService

open Text

/-- The verbs of the protocol. -/
inductive Verb
  | auth
  | put
  | get
  | delete
  | update
  | level
  | logs
  | sessionLogs
  | exportLog
  | clear
  | shutdown
  | quit
  deriving DecidableEq, Repr

namespace Verb

/-- A verb as it is written, in capitals. -/
def name : Verb → String
  | auth => "AUTH"
  | put => "PUT"
  | get => "GET"
  | delete => "DELETE"
  | update => "UPDATE"
  | level => "LEVEL"
  | logs => "LOGS"
  | sessionLogs => "SESSION_LOGS"
  | exportLog => "EXPORT"
  | clear => "CLEAR"
  | shutdown => "SHUTDOWN"
  | quit => "QUIT"

/-- The verb with a name in capitals. -/
def ofName? (name : String) : Option Verb :=
  match name with
  | "AUTH" => some auth
  | "PUT" => some put
  | "GET" => some get
  | "DELETE" => some delete
  | "UPDATE" => some update
  | "LEVEL" => some level
  | "LOGS" => some logs
  | "SESSION_LOGS" => some sessionLogs
  | "EXPORT" => some exportLog
  | "CLEAR" => some clear
  | "SHUTDOWN" => some shutdown
  | "QUIT" => some quit
  | _ => none

/-- Reads a verb, in either case. -/
def read? (word : List Char) : Option Verb :=
  ofName? (upperAscii (String.ofList word))

theorem ofName?_name (verb : Verb) : ofName? verb.name = some verb := by
  cases verb <;> rfl

end Verb

/-- Which part of the logs is to be cleared. -/
inductive Scope
  | everything
  | session (name : String)
  deriving DecidableEq, Repr

/-- A request of a client. -/
inductive Request
  | auth (token : String)
  | put (key value : String)
  | get (key : String)
  | delete (key : String)
  | update (key value : String)
  | level (level : Option Level)
  | logs (count : Nat)
  | sessionLogs (session : String) (count : Nat)
  | exportLog (session : String)
  | clear (scope : Scope)
  | shutdown
  | quit
  deriving DecidableEq, Repr

namespace Request

/-- The verb of a request. -/
def verb : Request → Verb
  | auth _ => .auth
  | put _ _ => .put
  | get _ => .get
  | delete _ => .delete
  | update _ _ => .update
  | level _ => .level
  | logs _ => .logs
  | sessionLogs _ _ => .sessionLogs
  | exportLog _ => .exportLog
  | clear _ => .clear
  | shutdown => .shutdown
  | quit => .quit

/-- Whether a client may ask for this before it has shown a token. -/
def isFree : Request → Bool
  | auth _ => true
  | quit => true
  | _ => false

end Request

/-- An argument that a verb needs. -/
inductive Argument
  | token
  | key
  | value
  | session
  | count
  deriving DecidableEq, Repr

/-- An argument as messages name it. -/
def Argument.name : Argument → String
  | token => "token"
  | key => "key"
  | value => "value"
  | session => "session"
  | count => "n"

/-- What is wrong with an argument that is there. -/
inductive ArgumentFault
  | trailing (text : String)
  | notCount (word : String)
  | unknownLevel (cause : UnknownLevel)
  deriving DecidableEq, Repr

/-- The wording of a fault. -/
def ArgumentFault.message : ArgumentFault → String
  | trailing text => "unexpected trailing input " ++ quoted text
  | notCount word => quoted word ++ " is not a count"
  | unknownLevel cause => cause.message

/-- Why a line is no request. -/
inductive RequestError
  | empty
  | unknown (verb : String)
  | missing (verb : Verb) (argument : Argument)
  | invalid (verb : Verb) (fault : ArgumentFault)
  deriving DecidableEq, Repr

/-- The wording of an error. -/
def RequestError.message : RequestError → String
  | empty => "empty command"
  | unknown verb => "unknown command " ++ verb
  | missing verb argument => verb.name ++ " requires <" ++ argument.name ++ ">"
  | invalid verb fault => verb.name ++ ": " ++ fault.message

end KeyValueService
