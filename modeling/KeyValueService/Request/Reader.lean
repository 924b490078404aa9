import KeyValueService.Request.Basic

/-!
# Reading requests

A line is taken apart word by word. `nextWord` skips blanks, takes the word up to the next blank and
drops that one blank; what follows is the rest, blanks included.
-/

namespace KeyValueService

open Text

namespace Request

/-- The first word and the text after the blank that ends it. -/
def nextWord (s : List Char) : List Char × List Char :=
  let s := s.dropWhile isBlank
  (cut? isBlank s).getD (s, [])

/-- The text of an argument, which must not be empty. -/
def needed (verb : Verb) (argument : Argument) (s : List Char) : Except RequestError String :=
  if s = [] then .error (.missing verb argument) else .ok (String.ofList s)

/-- Refuses anything but blanks. -/
def nothingMore (verb : Verb) (rest : List Char) : Except RequestError Unit :=
  match trimChars rest with
  | [] => .ok ()
  | more => .error (.invalid verb (.trailing (String.ofList more)))

/-- Reads the one word of a verb that takes one. -/
def readWord (verb : Verb) (argument : Argument) (rest : List Char) :
    Except RequestError String := do
  let (word, rest) := nextWord rest
  let word ← needed verb argument word
  nothingMore verb rest
  return word

/-- Reads a key and the value behind it. -/
def readPair (verb : Verb) (rest : List Char) : Except RequestError (String × String) := do
  let (key, value) := nextWord rest
  let key ← needed verb .key key
  let value ← needed verb .value value
  return (key, value)

/-- Reads a count as the last word of a line. -/
def readCount (verb : Verb) (rest : List Char) : Except RequestError Nat := do
  let (word, rest) := nextWord rest
  nothingMore verb rest
  let text ← needed verb .count word
  match readNat maxCount word with
  | .ok count => return count
  | .error _ => throw (.invalid verb (.notCount text))

/-- Reads the level that may follow the verb. -/
def readLevel (rest : List Char) : Except RequestError (Option Level) := do
  let (word, rest) := nextWord rest
  nothingMore .level rest
  if word = [] then return none
  match Level.read (String.ofList word) with
  | .ok threshold => return some threshold
  | .error cause => throw (.invalid .level (.unknownLevel cause))

/-- The scope that a word names; a star stands for everything. -/
def scopeOf (word : String) : Scope :=
  if word = "*" then .everything else .session word

/-- Reads the arguments of a verb. -/
def readArguments (rest : List Char) : Verb → Except RequestError Request
  | .auth => return auth (← readWord .auth .token rest)
  | .put => do
    let (key, value) ← readPair .put rest
    return put key value
  | .get => return get (← readWord .get .key rest)
  | .delete => return delete (← readWord .delete .key rest)
  | .update => do
    let (key, value) ← readPair .update rest
    return update key value
  | .level => return level (← readLevel rest)
  | .logs => return logs (← readCount .logs rest)
  | .sessionLogs => do
    let (session, rest) := nextWord rest
    let session ← needed .sessionLogs .session session
    return sessionLogs session (← readCount .sessionLogs rest)
  | .exportLog => return exportLog (← readWord .exportLog .session rest)
  | .clear => return clear (scopeOf (← readWord .clear .session rest))
  | .shutdown => do
    nothingMore .shutdown rest
    return shutdown
  | .quit => do
    nothingMore .quit rest
    return quit

/-- Whether a character can only be part of the end of a line. -/
def isLineEnd (c : Char) : Bool :=
  c == '\r' || c == '\n'

/-- Reads a line, with or without the line break at its end. -/
def read (line : List Char) : Except RequestError Request :=
  let (word, rest) := nextWord (dropEndWhile isLineEnd line)
  if word = [] then .error .empty
  else
    match Verb.read? word with
    | none => .error (.unknown (String.ofList word))
    | some verb => readArguments rest verb

end Request

end KeyValueService
