import KeyValueService.Text.Number
import KeyValueService.Time.Moment

/-!
# Instants

Points in time, counted in nanoseconds from 1970-01-01 00:00:00 UTC, and the stamp that a log line
shows for them. Instants before the epoch are shown as the epoch.
-/

namespace KeyValueService.Time

open KeyValueService.Text

/-- Nanoseconds since the epoch; negative before it. -/
structure Instant where
  nanoseconds : Int
  deriving DecidableEq, Repr, Inhabited

/-- The instant so many seconds and nanoseconds after the epoch. -/
def Instant.ofSeconds (seconds nanoseconds : Int) : Instant :=
  ⟨seconds * 1000000000 + nanoseconds⟩

/-- Whole seconds since the epoch, none before it. -/
def Instant.seconds (t : Instant) : Nat :=
  t.nanoseconds.toNat / 1000000000

/-- The milliseconds of the current second, without rounding up. -/
def Instant.milliseconds (t : Instant) : Nat :=
  t.nanoseconds.toNat % 1000000000 / 1000000

/-- Date and time of day to the millisecond. -/
def Moment.stamp (m : Moment) (milliseconds : Nat) : String :=
  padded 4 m.date.year ++ "-" ++ padded 2 m.date.month ++ "-" ++ padded 2 m.date.day ++ " " ++
    padded 2 m.hour ++ ":" ++ padded 2 m.minute ++ ":" ++ padded 2 m.second ++ "." ++
    padded 3 milliseconds

/-- The stamp of an instant; one whose date does not fit is given by its seconds. -/
def Instant.stamp (t : Instant) : String :=
  match Moment.ofSeconds t.seconds with
  | .ok moment => moment.stamp t.milliseconds
  | .error _ => "unix_" ++ toString t.seconds ++ "." ++ padded 3 t.milliseconds

end KeyValueService.Time
