import KeyValueService.Disk.Error

/-!
# Outcomes of sinks

A sink takes records and may be flushed. Each such call completes, fails, or crashes in the middle;
this module has the failures, their wording, and the three outcomes.
-/

namespace KeyValueService

/-- Why a sink fails. A poisoned sink crashed in the middle of a call and cannot be trusted. -/
inductive SinkError
  | disk (cause : DiskError)
  | poisoned (what : String)
  deriving DecidableEq, Repr, Inhabited

/-- The wording of a failure. -/
def SinkError.message : SinkError → String
  | .disk cause => "sink I/O error: " ++ cause.message
  | .poisoned what => "sink lock poisoned: " ++ what

/-- How a call ends: as it should, with a failure that the caller is told, or by a crash. -/
inductive Outcome
  | completed
  | failed (e : SinkError)
  | crashed
  deriving DecidableEq, Repr, Inhabited

namespace Outcome

/-- The outcome of a call that cannot crash. -/
def ofExcept : Except DiskError Unit → Outcome
  | .ok () => completed
  | .error e => failed (.disk e)

end Outcome

end KeyValueService
