import KeyValueService.History.Basic
import KeyValueService.Sink.Outcome

/-!
# Surroundings of a pipeline

What a pipeline of records calls: sinks, which consume records and are flushed, and subscribers, who
are told of records. They are known by names, and what they do is a change of one common state. A call
that fails or crashes is reported and has no other consequence for the caller.
-/

namespace KeyValueService

/-- A call that went wrong. -/
inductive Report
  | consumeFailed (e : SinkError)
  | consumeCrashed
  | flushFailed (e : SinkError)
  | flushCrashed
  | subscriberCrashed
  deriving DecidableEq, Repr

/-- The wording of a report. -/
def Report.message (r : Report) : String :=
  "[AsyncPipeline] " ++
    match r with
    | .consumeFailed e => "sink failed to consume record: " ++ e.message
    | .consumeCrashed => "sink panicked while consuming record"
    | .flushFailed e => "sink flush failed: " ++ e.message
    | .flushCrashed => "sink panicked during flush"
    | .subscriberCrashed => "subscriber panicked; record still delivered"

/-- Sinks named by `ι`, subscribers named by `κ`, and their common state. -/
structure Surroundings (ι κ σ : Type) where
  /-- A sink consumes a record. -/
  consume : ι → Record → σ → σ × Outcome
  /-- A sink is flushed. -/
  flush : ι → σ → σ × Outcome
  /-- A subscriber is told of a record and of how many wait. The answer is whether it returned. -/
  notify : κ → Record → Nat → σ → σ × Bool
  /-- A report is written down. -/
  report : Report → σ → σ
  /-- The history that a sink keeps, if it keeps one. -/
  history? : ι → σ → Option History
  /-- The history that a sink keeps is replaced. -/
  setHistory : ι → History → σ → σ

namespace Surroundings

variable {ι κ σ : Type}

/-- Reports a call to consume that went wrong. -/
def reportConsume (s : Surroundings ι κ σ) : σ × Outcome → σ
  | (w, .completed) => w
  | (w, .failed e) => s.report (.consumeFailed e) w
  | (w, .crashed) => s.report .consumeCrashed w

/-- Reports a call to flush that went wrong. -/
def reportFlush (s : Surroundings ι κ σ) : σ × Outcome → σ
  | (w, .completed) => w
  | (w, .failed e) => s.report (.flushFailed e) w
  | (w, .crashed) => s.report .flushCrashed w

/-- Hands a record to sinks, one after the other. -/
def deliver (s : Surroundings ι κ σ) (r : Record) (sinks : List ι) (w : σ) : σ :=
  sinks.foldl (fun w sink => s.reportConsume (s.consume sink r w)) w

/-- Flushes sinks, one after the other. -/
def flushAll (s : Surroundings ι κ σ) (sinks : List ι) (w : σ) : σ :=
  sinks.foldl (fun w sink => s.reportFlush (s.flush sink w)) w

/-- Tells subscribers of a record, one after the other. -/
def notifyAll (s : Surroundings ι κ σ) (r : Record) (waiting : Nat) (subscribers : List κ) (w : σ) :
    σ :=
  subscribers.foldl (fun w subscriber =>
    match s.notify subscriber r waiting w with
    | (w, true) => w
    | (w, false) => s.report .subscriberCrashed w) w

end Surroundings

/-- Surroundings without sinks and subscribers. -/
def Surroundings.nothing {σ : Type} : Surroundings Empty Empty σ where
  consume sink := nomatch sink
  flush sink := nomatch sink
  notify subscriber := nomatch subscriber
  report _ w := w
  history? sink := nomatch sink
  setHistory sink := nomatch sink

end KeyValueService
