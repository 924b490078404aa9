import KeyValueService.Pipeline.Surroundings
import KeyValueService.Sink.Console
import KeyValueService.Sink.LogFile
import KeyValueService.Sink.Memory

/-!
# Outlets

The three sinks of a standard logger: a console on standard output, a history in memory and a log
file. They share a host, on whose standard error reports are written. There may be more sinks, and
subscribers, with a state of their own; they share the host as well.
-/

namespace KeyValueService

/-- A sink of a logger: one of the standard ones, or another one named by `α`. -/
inductive Outlet (α : Type)
  | console
  | history
  | file
  | other (a : α)
  deriving DecidableEq, Repr

/-- The states of the sinks, with the host they share. A logger may do without console and file. -/
structure Outlets (τ : Type) where
  host : Host
  console : Option Console
  history : History
  file : Option LogFile
  others : τ

namespace Outlets

variable {α κ τ : Type}

/-- What the other sinks and subscribers can change. -/
def shared (o : Outlets τ) : Host × τ :=
  (o.host, o.others)

/-- The outlets after a change of what the others can change. -/
def withShared (o : Outlets τ) (changed : Host × τ) : Outlets τ :=
  { o with host := changed.1, others := changed.2 }

/-- A call of the console; what it writes goes to standard output. -/
def callConsole (o : Outlets τ)
    (call : Console → Stream Unit → Console × Stream Unit × Outcome) : Outlets τ × Outcome :=
  match o.console with
  | none => (o, .completed)
  | some console =>
    let (console, stream, outcome) := call console ⟨(), []⟩
    ({ o with console := some console, host := o.host.print stream.received.toByteArray }, outcome)

/-- A call of the log file. -/
def callFile (o : Outlets τ) (call : LogFile → Host → LogFile × Host × Outcome) :
    Outlets τ × Outcome :=
  match o.file with
  | none => (o, .completed)
  | some file =>
    let (file, host, outcome) := call file o.host
    ({ o with file := some file, host }, outcome)

/-- Writes what the log file holds back and stops writing to it. -/
def closeFile (o : Outlets τ) : Outlets τ :=
  match o.file with
  | none => o
  | some file => { o with file := none, host := file.close o.host }

/-- Outlets without console and log file. -/
def ofHistory (host : Host) (history : History) (others : τ) : Outlets τ :=
  ⟨host, none, history, none, others⟩

end Outlets

open Outlets in
/-- The standard sinks beside other surroundings. -/
def Surroundings.withOutlets {α κ τ : Type} (others : Surroundings α κ (Host × τ)) :
    Surroundings (Outlet α) κ (Outlets τ) where
  consume
    | .console, r, o => o.callConsole fun c s => c.consume .boundless s r
    | .history, r, o => (o.history.consume r).map (fun history => { o with history }) id
    | .file, r, o => o.callFile fun f host => f.consume host r
    | .other a, r, o => (others.consume a r o.shared).map o.withShared id
  flush
    | .console, o => o.callConsole fun c s => c.flush .boundless s
    | .history, o => (o, .completed)
    | .file, o => o.callFile fun f host => f.flush host
    | .other a, o => (others.flush a o.shared).map o.withShared id
  notify subscriber r waiting o :=
    (others.notify subscriber r waiting o.shared).map o.withShared id
  report r o := { o with host := o.host.report r.message }
  history?
    | .history, o => some o.history
    | .other a, o => others.history? a o.shared
    | _, _ => none
  setHistory
    | .history, h, o => { o with history := h }
    | .other a, h, o => o.withShared (others.setHistory a h o.shared)
    | _, _, o => o

end KeyValueService
