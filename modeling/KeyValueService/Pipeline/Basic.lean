import KeyValueService.Pipeline.Backlog
import KeyValueService.Pipeline.Surroundings

/-!
# Pipelines

A pipeline brings records from those who log to the sinks. A record below the threshold is dropped.
Any other is shown to the subscribers and then joins the backlog, in which the oldest record makes
room if need be. A worker takes the records from the backlog, in order, and hands each to the sinks
that are registered when it is taken. Logging never waits for a sink and never fails.

Every definition here is one uninterrupted step of a pipeline, so that a run is a sequence of steps,
with those of the worker, `Pipeline.work`, at any places between the others.
-/

namespace KeyValueService

/-- What the worker is doing. One that delivers has some of the sinks still before it. -/
inductive Worker (ι : Type)
  | stopped
  | waiting
  | delivering (r : Record) (remaining : List ι)
  deriving Repr

/-- The records that wait, who gets them, and the state of the surroundings. Subscribers stand in the
order of their numbers, which are counted without a limit: a counter of 64 bits gives the same ones for
the first 2 ^ 64 - 1 subscriptions. A sink that was registered twice gets a record twice. -/
structure Pipeline (ι κ σ : Type) where
  backlog : Backlog Record
  threshold : Level
  sinks : List ι
  subscribers : List (Nat × κ)
  nextSubscriber : Nat
  worker : Worker ι
  outside : σ

namespace Pipeline

variable {ι κ σ : Type}

/-- How many records wait at most unless a number is given. -/
def standardCapacity : Nat := 65536

/-- Statements that log below this level are left out of the program. -/
def statementFloor : Level := .info

/-- A stopped pipeline without sinks and subscribers. -/
def create (capacity : Nat) (outside : σ) : Pipeline ι κ σ where
  backlog := .empty capacity
  threshold := .info
  sinks := []
  subscribers := []
  nextSubscriber := 1
  worker := .stopped
  outside

/-- Whether there is a worker. -/
def isRunning (p : Pipeline ι κ σ) : Bool :=
  match p.worker with
  | .stopped => false
  | _ => true

/-- How many records wait. -/
def pending (p : Pipeline ι κ σ) : Nat :=
  p.backlog.size

/-- Whether a record of a level is let in. -/
def accepts (p : Pipeline ι κ σ) (level : Level) : Bool :=
  decide (p.threshold ≤ level)

/-- Changes the threshold for the records to come. -/
def setThreshold (p : Pipeline ι κ σ) (level : Level) : Pipeline ι κ σ :=
  { p with threshold := level }

/-- Registers a sink once more. -/
def addSink (p : Pipeline ι κ σ) (sink : ι) : Pipeline ι κ σ :=
  { p with sinks := p.sinks ++ [sink] }

/-- Takes back every registration of a sink, and tells whether there was one. -/
def removeSink [DecidableEq ι] (p : Pipeline ι κ σ) (sink : ι) : Pipeline ι κ σ × Bool :=
  ({ p with sinks := p.sinks.filter (· ≠ sink) }, decide (sink ∈ p.sinks))

/-- Registers a subscriber under a number that was never used before. -/
def subscribe (p : Pipeline ι κ σ) (subscriber : κ) : Pipeline ι κ σ × Nat :=
  ({ p with
      subscribers := p.subscribers ++ [(p.nextSubscriber, subscriber)]
      nextSubscriber := p.nextSubscriber + 1 },
    p.nextSubscriber)

/-- Takes back the registration with a number, and tells whether there was one. -/
def unsubscribe (p : Pipeline ι κ σ) (number : Nat) : Pipeline ι κ σ × Bool :=
  ({ p with subscribers := p.subscribers.filter fun entry => entry.1 ≠ number },
    p.subscribers.any fun entry => entry.1 == number)

/-- Shows a record to the subscribers. -/
def announce (s : Surroundings ι κ σ) (p : Pipeline ι κ σ) (r : Record) : Pipeline ι κ σ :=
  { p with outside := s.notifyAll r p.pending (p.subscribers.map (·.2)) p.outside }

/-- Adds a record to those that wait. -/
def enqueue (p : Pipeline ι κ σ) (r : Record) : Pipeline ι κ σ :=
  { p with backlog := p.backlog.push r }

/-- Logs an event. -/
def submit (s : Surroundings ι κ σ) (p : Pipeline ι κ σ) (origin : Origin) (level : Level)
    (session : Option String) (message : String) : Pipeline ι κ σ :=
  if p.accepts level then
    let r := Record.capture origin level session message
    (p.announce s r).enqueue r
  else p

/-- Logs an event by a statement, which may have been left out of the program. -/
def state (s : Surroundings ι κ σ) (p : Pipeline ι κ σ) (origin : Origin) (level : Level)
    (session : Option String) (message : String) : Pipeline ι κ σ :=
  if statementFloor ≤ level then p.submit s origin level session message else p

/-- Starts a worker, if there is none. -/
def start (p : Pipeline ι κ σ) : Pipeline ι κ σ :=
  match p.worker with
  | .stopped => { p with worker := .waiting }
  | _ => p

/-- One step of the worker: it hands a record to the next sink, or is done with the record, or takes
the next record along with the sinks registered at that moment. Otherwise it waits. -/
def work (s : Surroundings ι κ σ) (p : Pipeline ι κ σ) : Pipeline ι κ σ :=
  match p.worker with
  | .stopped => p
  | .delivering r (sink :: remaining) =>
    { p with
      worker := .delivering r remaining
      outside := s.reportConsume (s.consume sink r p.outside) }
  | .delivering _ [] => { p with worker := .waiting }
  | .waiting =>
    match p.backlog.pop? with
    | none => p
    | some (r, backlog) => { p with backlog, worker := .delivering r p.sinks }

/-- Whether the worker waits for records that are not there, or is not there itself. -/
def isIdle (p : Pipeline ι κ σ) : Bool :=
  match p.worker with
  | .stopped => true
  | .waiting => p.pending == 0
  | .delivering _ _ => false

/-- The worker finishes the record that it delivers, and then delivers all that wait. -/
def drain (s : Surroundings ι κ σ) (p : Pipeline ι κ σ) : Pipeline ι κ σ :=
  match p.worker with
  | .stopped => p
  | .waiting => { p with backlog := p.backlog.clear, outside := all p.outside }
  | .delivering r remaining =>
    { p with
      backlog := p.backlog.clear
      worker := .waiting
      outside := all (s.deliver r remaining p.outside) }
where
  /-- Every record that waits is handed to the sinks. -/
  all (w : σ) : σ :=
    p.backlog.toList.foldl (fun w r => s.deliver r p.sinks w) w

/-- Flushes the sinks. -/
def flush (s : Surroundings ι κ σ) (p : Pipeline ι κ σ) : Pipeline ι κ σ :=
  { p with outside := s.flushAll p.sinks p.outside }

/-- Stops the worker, if there is one, after it has delivered all records and flushed the sinks.
On request the sinks are then flushed once more. -/
def shutdown (s : Surroundings ι κ σ) (p : Pipeline ι κ σ) (flushing : Bool) : Pipeline ι κ σ :=
  if p.isRunning then
    let stopped := { (p.drain s).flush s with worker := .stopped }
    if flushing then stopped.flush s else stopped
  else p

/-- The first sink that keeps a history, with that history. -/
def history? (s : Surroundings ι κ σ) (p : Pipeline ι κ σ) : Option (ι × History) :=
  p.sinks.findSome? fun sink => (s.history? sink p.outside).map (sink, ·)

/-- The last `n` records in the history. -/
def latest (s : Surroundings ι κ σ) (p : Pipeline ι κ σ) (n : Nat) : List Record :=
  ((p.history? s).map fun (_, h) => h.latest n).getD []

/-- The last `n` records of a session in the history. -/
def latestOf (s : Surroundings ι κ σ) (p : Pipeline ι κ σ) (session : String) (n : Nat) :
    List Record :=
  ((p.history? s).map fun (_, h) => h.latestOf session n).getD []

/-- The export of a session from the history. -/
def exportOf (s : Surroundings ι κ σ) (p : Pipeline ι κ σ) (session : String) : String :=
  ((p.history? s).map fun (_, h) => h.exportOf session).getD ""

/-- Clears a session in the history, and tells whether it was known. -/
def clearSession (s : Surroundings ι κ σ) (p : Pipeline ι κ σ) (session : String) :
    Pipeline ι κ σ × Bool :=
  match p.history? s with
  | none => (p, false)
  | some (sink, h) =>
    let (h, known) := h.clearSession session
    ({ p with outside := s.setHistory sink h p.outside }, known)

/-- Clears the history. -/
def clear (s : Surroundings ι κ σ) (p : Pipeline ι κ σ) : Pipeline ι κ σ :=
  match p.history? s with
  | none => p
  | some (sink, h) => { p with outside := s.setHistory sink h.clear p.outside }

/-- The given number of steps of the worker. -/
def workSteps (s : Surroundings ι κ σ) : Nat → Pipeline ι κ σ → Pipeline ι κ σ
  | 0, p => p
  | n + 1, p => workSteps s n (p.work s)

end Pipeline

end KeyValueService
