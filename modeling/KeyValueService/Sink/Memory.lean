import KeyValueService.History.Basic
import KeyValueService.Sink.Outcome

/-!
# Histories as sinks

A history consumes the records that it keeps. The slots for a session are set aside when its first
record comes. Where there cannot be that many, the call crashes, and the session stays unknown; what is
kept of everything does not depend on that.
-/

namespace KeyValueService.History

/-- Whether the slots for the session of a record are there or can be set aside. -/
def canAdd (h : History) (r : Record) : Bool :=
  match r.session with
  | none => true
  | some session => h.sessions.contains session || hasRoom h.sessionCapacity

/-- Consumes a record. By the time of a crash the record is among those of everything. -/
def consume (h : History) (r : Record) : History × Outcome :=
  if h.canAdd r then (h.add r, .completed)
  else ({ h with everything := h.everything.push r }, .crashed)

/-- Where the session has its slots, to consume a record is to add it. -/
theorem consume_of_canAdd {h : History} {r : Record} (room : h.canAdd r) :
    h.consume r = (h.add r, .completed) := by
  simp [consume, room]

/-- Whether the call completes or crashes, the record is among those of everything. -/
@[simp]
theorem everything_consume (h : History) (r : Record) :
    (h.consume r).1.everything = h.everything.push r := by
  unfold consume
  split <;> rfl

end KeyValueService.History
