import KeyValueService.Record.Style
import KeyValueService.Sink.Stream

/-!
# Consoles

A console shows records on a stream, one after the other, each in the style in force and followed by
a line break. A crash of the device poisons the console: it then refuses every call, and nothing more
reaches the device.
-/

namespace KeyValueService

/-- The style in force, and whether the device has crashed. -/
structure Console where
  style : ConsoleStyle
  isPoisoned : Bool
  deriving DecidableEq, Repr, Inhabited

namespace Console

/-- A console with a style. -/
def ofStyle (style : ConsoleStyle) : Console :=
  ⟨style, false⟩

/-- The refusal of a poisoned console. -/
def poisoned : SinkError :=
  .poisoned "sink state"

/-- The console after a call with an outcome. -/
def after (c : Console) : Outcome → Console
  | .crashed => { c with isPoisoned := true }
  | _ => c

/-- The style in force. -/
def currentStyle (c : Console) : Except SinkError ConsoleStyle :=
  if c.isPoisoned then .error poisoned else .ok c.style

/-- Changes the style for the records to come. -/
def setStyle (c : Console) (style : ConsoleStyle) : Console × Except SinkError Unit :=
  if c.isPoisoned then (c, .error poisoned) else ({ c with style }, .ok ())

variable {σ : Type}

/-- Shows a record: its text first, then the line break. -/
def consume (d : Device σ) (c : Console) (s : Stream σ) (r : Record) :
    Console × Stream σ × Outcome :=
  if c.isPoisoned then (c, s, .failed poisoned)
  else
    let line := (c.style.render r).toUTF8.data.toList
    let (s, outcome) := s.writePieces d [line, "\n".toUTF8.data.toList]
    (c.after outcome, s, outcome)

/-- Flushes the device. -/
def flush (d : Device σ) (c : Console) (s : Stream σ) : Console × Stream σ × Outcome :=
  if c.isPoisoned then (c, s, .failed poisoned)
  else
    let (s, outcome) := s.flush d
    (c.after outcome, s, outcome)

end Console

end KeyValueService
