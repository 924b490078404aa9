import KeyValueService.Record.Level
import KeyValueService.Time.Instant

/-!
# Log records

What is known of one logged event.
-/

namespace KeyValueService

open Time

/-- Where and when a record is made: the instant and the number of the thread that makes it. -/
structure Origin where
  time : Instant
  producer : Nat
  deriving DecidableEq, Repr, Inhabited

/-- One logged event. The session is that of the client on whose behalf it was logged, if any. -/
structure Record where
  time : Instant
  producer : Nat
  level : Level
  session : Option String
  message : String
  deriving DecidableEq, Repr, Inhabited

/-- The record of an event that happens at the given origin. -/
def Record.capture (origin : Origin) (level : Level) (session : Option String) (message : String) :
    Record :=
  ⟨origin.time, origin.producer, level, session, message⟩

end KeyValueService
