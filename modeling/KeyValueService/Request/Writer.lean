import KeyValueService.Request.Basic

/-!
# Writing requests

The canonical line of a request: the verb and its arguments with one space before each. A request is
well formed if its words are words and its value can stand at the end of a line; those are the
requests that a line can make.
-/

namespace KeyValueService

open Text

namespace Request

/-- The arguments of a request, in order. -/
def arguments : Request → List String
  | auth token => [token]
  | put key value => [key, value]
  | get key => [key]
  | delete key => [key]
  | update key value => [key, value]
  | level none => []
  | level (some threshold) => [threshold.name]
  | logs count => [toString count]
  | sessionLogs session count => [session, toString count]
  | exportLog session => [session]
  | clear .everything => ["*"]
  | clear (.session name) => [name]
  | shutdown => []
  | quit => []

/-- The canonical line, without a line break. -/
def line (r : Request) : String :=
  String.intercalate " " (r.verb.name :: r.arguments)

/-- A text that is one word. -/
def IsWord (s : String) : Prop :=
  s ≠ "" ∧ ∀ c ∈ s.toList, isBlank c = false

/-- A text that can stand at the end of a line. -/
def IsValue (s : String) : Prop :=
  s ≠ "" ∧ s.toList.getLast? ≠ some '\r' ∧ s.toList.getLast? ≠ some '\n'

/-- The requests that a line can make. -/
def WellFormed : Request → Prop
  | auth token => IsWord token
  | put key value => IsWord key ∧ IsValue value
  | get key => IsWord key
  | delete key => IsWord key
  | update key value => IsWord key ∧ IsValue value
  | level _ => True
  | logs count => count ≤ maxCount
  | sessionLogs session count => IsWord session ∧ count ≤ maxCount
  | exportLog session => IsWord session
  | clear .everything => True
  | clear (.session name) => IsWord name ∧ name ≠ "*"
  | shutdown => True
  | quit => True

end Request

end KeyValueService
