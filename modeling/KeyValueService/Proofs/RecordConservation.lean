import KeyValueService.Proofs.PipelineMoves
import Mathlib.Data.List.Induction

/-!
# Conservation of records

A ledger follows a run of a pipeline. It keeps the records that entered the backlog
and the records that left it, each with how it left: the worker took it, for the
sinks registered at that moment, or it made room for a later record. What leaves is
read off the backlog itself: of the records that waited or came, those in front that
wait no longer.

The main law is `records_conserved`. It holds after every run, so at every state that
can be reached by moves of producers, the worker and whoever starts and stops it. The
records that entered are those that left, in order, followed by those that wait, and
the worker has handed to sinks exactly what the ledger says it took.

Nothing is said of what sinks do with a record, and nothing of how long it waits.
-/

namespace KeyValueService

namespace Backlog

universe u
variable {α : Type u}

/-- Of the items that wait and the one that comes, the oldest leaves exactly if there is no room;
the others wait in order. -/
theorem split_push (b : Backlog α) (a : α) :
    b.toList ++ [a] = (if b.isFull then b.toList.take 1 else []) ++ (b.push a).toList := by
  rw [toList_push]
  by_cases full : b.isFull
  · rw [if_pos full, if_pos full, ← List.append_assoc, ← List.drop_one, List.take_append_drop]
  · rw [if_neg full, if_neg full, List.nil_append]

/-- There is no room exactly when as many items wait as the capacity allows. -/
theorem isFull_iff (b : Backlog α) : b.isFull ↔ b.toList.length = b.capacity := by
  rw [isFull, beq_iff_eq, length_toList]

end Backlog

namespace Pipeline

variable {ι κ σ : Type}

/-- How a record leaves the backlog: the worker takes it, to hand it to the sinks that are registered
at that moment, or it makes room for a later record. -/
inductive Departure (ι : Type)
  | taken (sinks : List ι)
  | evicted
  deriving DecidableEq, Repr

/-- The records that a move adds to the backlog. -/
def Move.entering (p : Pipeline ι κ σ) : Move ι κ → List Record
  | .enqueue r => [r]
  | .submit origin level session message =>
    if p.accepts level then [.capture origin level session message] else []
  | _ => []

/-- Whether records that leave in a move are taken by the worker. -/
def Move.delivers : Move ι κ → Bool
  | .work => true
  | .shutdown _ => true
  | _ => false

/-- How records leave in a move. -/
def Move.departure (p : Pipeline ι κ σ) (move : Move ι κ) : Departure ι :=
  if move.delivers then .taken p.sinks else .evicted

/-- The records that leave in a move of the worker: the oldest one when it waits for a record, all of
them when it is shut down. A worker that is not there takes none. -/
def Move.taking (p : Pipeline ι κ σ) : Move ι κ → List Record
  | .work =>
    match p.worker with
    | .waiting => p.backlog.toList.take 1
    | _ => []
  | .shutdown _ => if p.isRunning then p.backlog.toList else []
  | _ => []

/-- The records that leave in a move of a producer: the oldest one, when a record comes and as many
wait as the capacity allows. -/
def Move.evicting (p : Pipeline ι κ σ) (move : Move ι κ) : List Record :=
  if move.entering p ≠ [] ∧ p.backlog.toList.length = p.backlog.capacity then
    p.backlog.toList.take 1
  else []

/-- A record that comes to a full backlog evicts the oldest one. -/
theorem backlog_enqueue (p : Pipeline ι κ σ) (r : Record) :
    p.backlog.toList ++ [r] =
      (if p.backlog.toList.length = p.backlog.capacity then p.backlog.toList.take 1 else []) ++
        (p.enqueue r).backlog.toList := by
  have split := p.backlog.split_push r
  simp only [Backlog.isFull_iff] at split
  exact split

/-- One step of the worker takes the oldest record, if it waits for one. -/
theorem backlog_work (s : Surroundings ι κ σ) (p : Pipeline ι κ σ) :
    p.backlog.toList = Move.taking p (.work : Move ι κ) ++ (p.work s).backlog.toList := by
  cases state : p.worker with
  | stopped => simp [Move.taking, work, state]
  | delivering r remaining => cases remaining <;> simp [Move.taking, work, state]
  | waiting =>
    cases popped : p.backlog.pop? with
    | none => simp [Move.taking, work, state, popped, Backlog.pop?_eq_none_iff.1 popped]
    | some taken => simp [Move.taking, work, state, popped, Backlog.toList_of_pop? popped]

/-- A shutdown leaves nothing waiting, unless there is no worker. -/
theorem backlog_shutdown (s : Surroundings ι κ σ) (p : Pipeline ι κ σ) (flushing : Bool) :
    (p.shutdown s flushing).backlog.toList = if p.isRunning then [] else p.backlog.toList := by
  unfold shutdown
  by_cases running : p.isRunning
  · have drained : (p.drain s).backlog.toList = [] := by
      cases state : p.worker with
      | stopped => simp [isRunning, state] at running
      | waiting => simp [drain, state]
      | delivering r remaining => simp [drain, state]
    rw [if_pos running, if_pos running]
    cases flushing <;> exact drained
  · rw [if_neg running, if_neg running]

/-- The records that sinks were called to consume, each with the sink, in order. -/
def consumed (calls : List (Call ι)) : List (ι × Record) :=
  calls.filterMap fun
    | .consume sink r => some (sink, r)
    | .flush _ => none

theorem consumed_append (calls more : List (Call ι)) :
    consumed (calls ++ more) = consumed calls ++ consumed more :=
  List.filterMap_append

theorem consumed_consume (due : List (ι × Record)) :
    consumed (due.map fun call => Call.consume call.1 call.2) = due := by
  rw [consumed, List.filterMap_map]
  exact List.filterMap_some

theorem consumed_flush (sinks : List ι) : consumed (sinks.map Call.flush) = [] := by
  rw [consumed, List.filterMap_map]
  exact List.filterMap_eq_nil_iff.2 fun _ _ => rfl

/-- The calls that a traced pipeline has made to consume records, and those that its worker still has
to make for the record that it delivers. -/
def handed (p : Pipeline ι κ (σ × List (Call ι))) : List (ι × Record) :=
  consumed p.outside.2 ++ p.worker.outstanding

/-- Only by taking a record does a step of the worker call for anything new. -/
theorem outstanding_work (s : Surroundings ι κ σ) (p : Pipeline ι κ σ) :
    p.worker.outstanding.take 1 ++ (p.work s).worker.outstanding =
      p.worker.outstanding ++
        (Move.taking p (.work : Move ι κ)).flatMap fun r => p.sinks.map (·, r) := by
  cases state : p.worker with
  | stopped => simp [work, state, Move.taking, Worker.outstanding]
  | waiting =>
    cases popped : p.backlog.pop? with
    | none =>
      simp [work, state, popped, Move.taking, Worker.outstanding, Backlog.pop?_eq_none_iff.1 popped]
    | some taken =>
      simp [work, state, popped, Move.taking, Backlog.toList_of_pop? popped, Worker.outstanding]
  | delivering r remaining =>
    cases remaining <;> simp [work, state, Move.taking, Worker.outstanding]

variable [DecidableEq ι]

/-- What sinks are called to consume in a move, and what they still will be after it, is what they were
still to be called for before, and for each record taken one call for each sink registered. -/
theorem outstanding_apply (s : Surroundings ι κ σ) (p : Pipeline ι κ σ) (move : Move ι κ) :
    consumed (move.calls p) ++ (move.apply s p).worker.outstanding =
      p.worker.outstanding ++ (move.taking p).flatMap fun r => p.sinks.map (·, r) := by
  cases move with
  | work =>
    rw [Move.calls, consumed_consume]
    exact p.outstanding_work s
  | shutdown flushing =>
    by_cases running : p.isRunning
    · have flushes : consumed (p.sinks.map .flush ++ if flushing then p.sinks.map .flush else []) =
          [] := by
        cases flushing <;> simp [consumed_append, consumed_flush]
      rw [Move.calls, if_pos running, consumed_append, consumed_consume, flushes]
      cases flushing <;> simp [Move.apply, shutdown, running, flush, Move.taking, Worker.outstanding]
    · simp [Move.apply, shutdown, running, Move.calls, Move.taking, consumed]
  | flush => simp [Move.apply, flush, Move.calls, Move.taking, consumed_flush]
  | submit origin level session message =>
    by_cases accepted : p.accepts level <;>
      simp [Move.apply, submit, accepted, announce, enqueue, Move.calls, Move.taking, consumed]
  | start =>
    cases state : p.worker <;>
      simp [Move.apply, start, state, Move.calls, Move.taking, consumed, Worker.outstanding]
  | clearSession session =>
    simp [Move.apply, clearSession_eq, withOutside, Move.calls, Move.taking, consumed]
  | clear => simp [Move.apply, clear_eq, withOutside, Move.calls, Move.taking, consumed]
  | announce | enqueue | setThreshold | addSink | removeSink | subscribe | unsubscribe =>
    simp [Move.apply, announce, enqueue, setThreshold, addSink, removeSink, subscribe, unsubscribe,
      Move.calls, Move.taking, consumed]

/-- In every move, what sinks have been called to consume or still will be is what it was before, and
for each record taken one call for each sink registered. -/
theorem handed_apply (s : Surroundings ι κ σ) (p : Pipeline ι κ (σ × List (Call ι)))
    (move : Move ι κ) :
    (move.apply s.traced p).handed = p.handed ++
      (move.taking p).flatMap fun r => p.sinks.map (·, r) := by
  rw [handed, calls_apply, consumed_append, List.append_assoc, outstanding_apply, ← List.append_assoc]
  rfl

/-- The records that a move removes from the backlog: of those that waited or came, the ones in front
that wait no longer. -/
def Move.departing (s : Surroundings ι κ σ) (p : Pipeline ι κ σ) (move : Move ι κ) : List Record :=
  let present := p.backlog.toList ++ move.entering p
  present.take (present.length - (move.apply s p).backlog.toList.length)

/-- What a move does to the records that wait. Only an added record, a step of a waiting worker and a
shutdown move any; the cases are the moves. -/
theorem backlog_apply (s : Surroundings ι κ σ) (p : Pipeline ι κ σ) (move : Move ι κ) :
    p.backlog.toList ++ move.entering p =
      (if move.delivers then move.taking p else move.evicting p) ++
        (move.apply s p).backlog.toList := by
  cases move with
  | enqueue r =>
    simpa [Move.entering, Move.delivers, Move.evicting, Move.apply] using p.backlog_enqueue r
  | submit origin level session message =>
    by_cases accepted : p.accepts level
    · have added := p.backlog_enqueue (.capture origin level session message)
      simpa [Move.entering, Move.delivers, Move.evicting, Move.apply, submit, accepted, announce,
        enqueue] using added
    · simp [Move.entering, Move.delivers, Move.evicting, Move.apply, submit, accepted]
  | work => simpa [Move.entering, Move.delivers, Move.apply] using p.backlog_work s
  | shutdown flushing =>
    simp only [Move.entering, Move.delivers, Move.taking, Move.apply, p.backlog_shutdown s flushing]
    by_cases running : p.isRunning <;> simp [running]
  | start =>
    cases state : p.worker <;> simp [Move.entering, Move.delivers, Move.evicting, Move.apply, start, state]
  | clearSession session =>
    simp only [Move.entering, Move.delivers, Move.evicting, Move.apply, clearSession]
    cases p.history? s <;> simp
  | clear =>
    simp only [Move.entering, Move.delivers, Move.evicting, Move.apply, clear]
    cases p.history? s <;> simp
  | announce | flush | setThreshold | addSink | removeSink | subscribe | unsubscribe =>
    simp [Move.entering, Move.delivers, Move.evicting, Move.apply, announce, flush, setThreshold, addSink,
      removeSink, subscribe, unsubscribe]

/-- What leaves in a move is what the worker takes in it, or what is evicted in it. -/
theorem departing_eq (s : Surroundings ι κ σ) (p : Pipeline ι κ σ) (move : Move ι κ) :
    move.departing s p = if move.delivers then move.taking p else move.evicting p := by
  simp [Move.departing, p.backlog_apply s move]

theorem capacity_apply (s : Surroundings ι κ σ) (p : Pipeline ι κ σ) (move : Move ι κ) :
    (move.apply s p).backlog.capacity = p.backlog.capacity := by
  cases move with
  | enqueue r => simp [Move.apply, enqueue]
  | submit origin level session message =>
    by_cases accepted : p.accepts level <;>
      simp [Move.apply, submit, accepted, announce, enqueue]
  | work =>
    cases state : p.worker with
    | stopped => simp [Move.apply, work, state]
    | delivering r remaining => cases remaining <;> simp [Move.apply, work, state]
    | waiting =>
      cases popped : p.backlog.pop? with
      | none => simp [Move.apply, work, state, popped]
      | some taken => simp [Move.apply, work, state, popped, Backlog.capacity_of_pop? popped]
  | shutdown flushing =>
    by_cases running : p.isRunning
    · have drained : (p.drain s).backlog.capacity = p.backlog.capacity := by
        cases state : p.worker <;> simp [drain, state, Backlog.clear]
      simp only [Move.apply, shutdown, if_pos running]
      cases flushing <;> exact drained
    · simp only [Move.apply, shutdown, if_neg running]
  | start => cases state : p.worker <;> simp [Move.apply, start, state]
  | clearSession session =>
    simp only [Move.apply, clearSession]
    cases p.history? s <;> simp
  | clear =>
    simp only [Move.apply, clear]
    cases p.history? s <;> simp
  | announce | flush | setThreshold | addSink | removeSink | subscribe | unsubscribe => rfl

omit [DecidableEq ι] in
/-- Only the worker takes records. -/
theorem taking_of_not_delivers (p : Pipeline ι κ σ) {move : Move ι κ}
    (producers : ¬ move.delivers) : move.taking p = [] := by
  cases move with
  | work | shutdown => exact absurd rfl producers
  | announce | enqueue | submit | start | flush | setThreshold | addSink | removeSink | subscribe
    | unsubscribe | clearSession | clear => rfl

omit [DecidableEq ι] in
/-- Nothing enters, and so nothing is evicted, in a move of the worker. -/
theorem evicting_of_delivers (p : Pipeline ι κ σ) {move : Move ι κ} (workers : move.delivers) :
    move.evicting p = [] := by
  have nothing : move.entering p = [] := by
    cases move with
    | work | shutdown => rfl
    | announce | enqueue | submit | start | flush | setThreshold | addSink | removeSink | subscribe
      | unsubscribe | clearSession | clear => cases workers
  rw [Move.evicting, if_neg]
  intro condition
  exact condition.1 nothing

end Pipeline

open Pipeline

/-- A pipeline in the middle of a run, the records that have entered its backlog and those that have
left it, each list in order. -/
structure Ledger (ι κ σ : Type) where
  pipeline : Pipeline ι κ σ
  entered : List Record
  left : List (Record × Departure ι)

namespace Ledger

variable {ι κ σ : Type}

/-- The ledger of a pipeline at the beginning of a run. -/
def opened (p : Pipeline ι κ σ) : Ledger ι κ σ :=
  ⟨p, [], []⟩

/-- The records that the worker has taken, in order. -/
def taken (ledger : Ledger ι κ σ) : List Record :=
  ledger.left.filterMap fun
    | (r, .taken _) => some r
    | (_, .evicted) => none

/-- The records that have been evicted, in order. -/
def evicted (ledger : Ledger ι κ σ) : List Record :=
  ledger.left.filterMap fun
    | (_, .taken _) => none
    | (r, .evicted) => some r

/-- The calls that the records taken by the worker call for: one for each of the sinks that it was
taken for, in order. -/
def due (ledger : Ledger ι κ σ) : List (ι × Record) :=
  ledger.left.flatMap fun
    | (r, .taken sinks) => sinks.map (·, r)
    | (_, .evicted) => []

variable [DecidableEq ι]

/-- The ledger after a move. -/
def step (s : Surroundings ι κ σ) (ledger : Ledger ι κ σ) (move : Move ι κ) : Ledger ι κ σ where
  pipeline := move.apply s ledger.pipeline
  entered := ledger.entered ++ move.entering ledger.pipeline
  left := ledger.left ++
    (move.departing s ledger.pipeline).map (·, move.departure ledger.pipeline)

/-- The ledger after moves, one after the other. -/
def run (s : Surroundings ι κ σ) (ledger : Ledger ι κ σ) (moves : List (Move ι κ)) : Ledger ι κ σ :=
  moves.foldl (step s) ledger

theorem run_append (s : Surroundings ι κ σ) (ledger : Ledger ι κ σ) (moves rest : List (Move ι κ)) :
    ledger.run s (moves ++ rest) = (ledger.run s moves).run s rest :=
  List.foldl_append

/-- A ledger follows the run and has no part in it. -/
theorem pipeline_run (s : Surroundings ι κ σ) (ledger : Ledger ι κ σ) (moves : List (Move ι κ)) :
    (ledger.run s moves).pipeline = ledger.pipeline.run s moves := by
  induction moves generalizing ledger with
  | nil => rfl
  | cons move rest inductionHypothesis => exact inductionHypothesis (ledger.step s move)

/-- A move adds to the records taken exactly those that the worker takes in it. -/
theorem taken_step (s : Surroundings ι κ σ) (ledger : Ledger ι κ σ) (move : Move ι κ) :
    (ledger.step s move).taken = ledger.taken ++ move.taking ledger.pipeline := by
  rw [taken, step, departing_eq, Move.departure, List.filterMap_append, List.filterMap_map]
  by_cases workers : move.delivers
  · rw [if_pos workers, if_pos workers]
    exact congrArg (ledger.taken ++ ·) List.filterMap_some
  · rw [if_neg workers, if_neg workers, taking_of_not_delivers _ workers]
    exact congrArg (ledger.taken ++ ·) (List.filterMap_eq_nil_iff.2 fun _ _ => rfl)

/-- A move adds to the records evicted at most the oldest one, when a record comes to a full backlog. -/
theorem evicted_step (s : Surroundings ι κ σ) (ledger : Ledger ι κ σ) (move : Move ι κ) :
    (ledger.step s move).evicted = ledger.evicted ++ move.evicting ledger.pipeline := by
  rw [evicted, step, departing_eq, Move.departure, List.filterMap_append, List.filterMap_map]
  by_cases workers : move.delivers
  · rw [if_pos workers, if_pos workers, evicting_of_delivers _ workers]
    exact congrArg (ledger.evicted ++ ·) (List.filterMap_eq_nil_iff.2 fun _ _ => rfl)
  · rw [if_neg workers, if_neg workers]
    exact congrArg (ledger.evicted ++ ·) List.filterMap_some

/-- The calls due after a move are those due before and, for each record taken in the move, one for
each sink. -/
theorem due_step (s : Surroundings ι κ σ) (ledger : Ledger ι κ σ) (move : Move ι κ) :
    (ledger.step s move).due = ledger.due ++
      (move.taking ledger.pipeline).flatMap fun r => ledger.pipeline.sinks.map (·, r) := by
  by_cases workers : move.delivers
  · simp [due, step, Move.departure, departing_eq, workers, List.flatMap_map]
  · simp [due, step, Move.departure, departing_eq, workers, List.flatMap_map,
      taking_of_not_delivers]

/-- Nothing is lost and nothing appears: what has entered is what has left, in order, followed by what
waits. -/
def Balanced (ledger : Ledger ι κ σ) : Prop :=
  ledger.entered = ledger.left.map (·.1) ++ ledger.pipeline.backlog.toList

/-- A move keeps the balance, whatever it is: what it removes was in front of what waits after it. -/
theorem Balanced.step (s : Surroundings ι κ σ) {ledger : Ledger ι κ σ} (balanced : ledger.Balanced)
    (move : Move ι κ) : (ledger.step s move).Balanced := by
  have split := ledger.pipeline.backlog_apply s move
  rw [← departing_eq s] at split
  calc ledger.entered ++ move.entering ledger.pipeline
      = ledger.left.map (·.1) ++
          (ledger.pipeline.backlog.toList ++ move.entering ledger.pipeline) := by
        rw [balanced, List.append_assoc]
    _ = ledger.left.map (·.1) ++ (move.departing s ledger.pipeline ++
          (move.apply s ledger.pipeline).backlog.toList) := by rw [split]
    _ = (ledger.step s move).left.map (·.1) ++
          (move.apply s ledger.pipeline).backlog.toList := by
        simp [Ledger.step, Function.comp_def]

/-- After any moves a balanced ledger is balanced, and the capacity is what it was. -/
theorem Balanced.run (s : Surroundings ι κ σ) {ledger : Ledger ι κ σ} (balanced : ledger.Balanced)
    (moves : List (Move ι κ)) :
    (ledger.run s moves).Balanced ∧
      (ledger.run s moves).pipeline.backlog.capacity = ledger.pipeline.backlog.capacity := by
  induction moves generalizing ledger with
  | nil => exact ⟨balanced, rfl⟩
  | cons move rest inductionHypothesis =>
    obtain ⟨kept, capacity⟩ := inductionHypothesis (balanced.step s move)
    exact ⟨kept, capacity.trans (ledger.pipeline.capacity_apply s move)⟩

omit [DecidableEq ι] in
/-- Each record that has left is among those taken or among those evicted, and not in both. -/
theorem left_perm (ledger : Ledger ι κ σ) :
    (ledger.left.map (·.1)).Perm (ledger.taken ++ ledger.evicted) := by
  unfold taken evicted
  induction ledger.left with
  | nil => exact .refl _
  | cons entry rest inductionHypothesis =>
    obtain ⟨r, how⟩ := entry
    cases how with
    | taken sinks => simpa using inductionHypothesis
    | evicted =>
      have moved := (inductionHypothesis.cons r).trans List.perm_middle.symm
      simpa using moved

omit [DecidableEq ι] in
/-- The worker takes records in the order in which they leave. -/
theorem taken_sublist (ledger : Ledger ι κ σ) : ledger.taken.Sublist (ledger.left.map (·.1)) := by
  unfold taken
  induction ledger.left with
  | nil => exact .slnil
  | cons entry rest inductionHypothesis =>
    obtain ⟨r, how⟩ := entry
    cases how with
    | taken sinks => simpa using inductionHypothesis
    | evicted => exact inductionHypothesis.cons r

omit [DecidableEq ι] in
/-- Where nothing has been evicted, all that has left has been taken. -/
theorem taken_of_none_evicted (ledger : Ledger ι κ σ) (none : ledger.evicted = []) :
    ledger.taken = ledger.left.map (·.1) := by
  refine ledger.taken_sublist.eq_of_length ?_
  have counted := ledger.left_perm.length_eq
  rw [none, List.append_nil] at counted
  exact counted.symm

/-- The worker of a traced pipeline hands over what the ledger calls for, neither more nor less. -/
theorem handed_run (s : Surroundings ι κ σ) (ledger : Ledger ι κ (σ × List (Call ι)))
    (agreed : ledger.pipeline.handed = ledger.due) (moves : List (Move ι κ)) :
    (ledger.run s.traced moves).pipeline.handed = (ledger.run s.traced moves).due := by
  induction moves generalizing ledger with
  | nil => exact agreed
  | cons move rest inductionHypothesis =>
    refine inductionHypothesis (ledger.step s.traced move) ?_
    rw [due_step, ← agreed]
    exact ledger.pipeline.handed_apply s move

/-- The ledger without the trace beside the state of the surroundings. -/
def untraced {τ : Type} (ledger : Ledger ι κ (σ × τ)) : Ledger ι κ σ :=
  ⟨ledger.pipeline.untraced, ledger.entered, ledger.left⟩

/-- What enters and what leaves does not depend on whether calls are traced. -/
theorem untraced_run (s : Surroundings ι κ σ) (ledger : Ledger ι κ (σ × List (Call ι)))
    (moves : List (Move ι κ)) :
    (ledger.run s.traced moves).untraced = ledger.untraced.run s moves := by
  induction moves generalizing ledger with
  | nil => rfl
  | cons move rest inductionHypothesis =>
    have stepped : (ledger.step s.traced move).untraced = ledger.untraced.step s move := by
      have entering : move.entering ledger.pipeline = move.entering ledger.untraced.pipeline := by
        cases move <;> rfl
      have departing : move.departing s.traced ledger.pipeline =
          move.departing s ledger.untraced.pipeline := by
        rw [departing_eq, departing_eq]
        simp only [Move.evicting, entering]
        cases move <;> rfl
      simp only [untraced, step, untraced_apply, entering, departing]
      rfl
    change ((ledger.step s.traced move).run s.traced rest).untraced =
      (ledger.untraced.step s move).run s rest
    rw [inductionHypothesis, stepped]

/-- As long as no record comes to a full backlog, nothing is evicted. -/
theorem none_evicted (s : Surroundings ι κ σ) (ledger : Ledger ι κ σ) (moves : List (Move ι κ))
    (room : ∀ before move, before ++ [move] <+: moves →
      move.evicting (ledger.run s before).pipeline = []) :
    (ledger.run s moves).evicted = ledger.evicted := by
  induction moves using List.reverseRecOn with
  | nil => rfl
  | append_singleton moves move inductionHypothesis =>
    have earlier := inductionHypothesis fun before other covered =>
      room before other (covered.trans (List.prefix_append moves [move]))
    have last := room moves move (List.prefix_refl _)
    rw [run_append]
    change ((ledger.run s moves).step s move).evicted = ledger.evicted
    rw [evicted_step, last, List.append_nil, earlier]

end Ledger

open Ledger in
/-- After every run of a pipeline, from its creation:

* no more records wait than its capacity, at least one, allows;
* the records that entered are those that left, in order, followed by those that wait; each that left
  was either taken by the worker or evicted, and was so once; those taken are in the order in which
  they entered;
* the next move, whatever it is, evicts at most the oldest record, and only when a record comes while
  exactly as many wait as the capacity allows; without a worker it takes none;
* if no record ever came to a full backlog, the records taken followed by those that wait are exactly
  those that entered;
* the calls made to sinks, and those still to be made for the record being delivered, are one for each
  record taken and each sink registered when it was taken, in that order.

Proof: the balance of entries and departures is kept by each move, since what it removes stood in front
of what waits after it. The trace of the calls is followed in the same way, and changes nothing. -/
theorem records_conserved {ι κ σ : Type} [DecidableEq ι] (s : Surroundings ι κ σ) (capacity : Nat)
    (outside : σ) (moves : List (Move ι κ)) :
    let ledger := (opened (create capacity outside)).run s moves
    let traced := (opened (create capacity (outside, []))).run s.traced moves
    let p := ledger.pipeline
    p = (create capacity outside).run s moves ∧
    p.backlog.toList.length ≤ max capacity 1 ∧
    ledger.entered = ledger.left.map (·.1) ++ p.backlog.toList ∧
    ledger.entered.Perm (ledger.taken ++ ledger.evicted ++ p.backlog.toList) ∧
    (ledger.taken ++ p.backlog.toList).Sublist ledger.entered ∧
    (∀ move : Move ι κ,
      (ledger.step s move).evicted = ledger.evicted ++
        (if move.entering p ≠ [] ∧ p.backlog.toList.length = max capacity 1 then
          p.backlog.toList.take 1
        else []) ∧
      (ledger.step s move).taken = ledger.taken ++ move.taking p ∧
      (p.isRunning = false → move.taking p = [])) ∧
    ((∀ before move, before ++ [move] <+: moves →
        let q := (create capacity outside).run s before
        move.entering q ≠ [] → q.backlog.toList.length < max capacity 1) →
      ledger.entered = ledger.taken ++ p.backlog.toList) ∧
    traced.left = ledger.left ∧
    consumed traced.pipeline.outside.2 ++ traced.pipeline.worker.outstanding = ledger.due := by
  intro ledger traced p
  have start : (opened (create capacity outside) : Ledger ι κ σ).Balanced := rfl
  obtain ⟨balanced, room⟩ := start.run s moves
  have capacityKept : p.backlog.capacity = max capacity 1 := room
  have followed : p = (create capacity outside).run s moves := pipeline_run s _ moves
  have alike : traced.untraced = ledger := Ledger.untraced_run s _ moves
  refine ⟨followed, ?_, balanced, ?_, ?_, ?_, ?_, congrArg Ledger.left alike, ?_⟩
  · rw [Backlog.length_toList, ← capacityKept]
    exact p.backlog.size_le
  · rw [balanced]
    exact ledger.left_perm.append_right _
  · rw [balanced]
    exact ledger.taken_sublist.append_right _
  · intro move
    refine ⟨?_, ledger.taken_step s move, ?_⟩
    · rw [ledger.evicted_step s move, Move.evicting, capacityKept]
    · intro stopped
      cases move with
      | work => cases state : p.worker <;> simp_all [isRunning, Move.taking]
      | shutdown flushing => simp [Move.taking, stopped]
      | announce | enqueue | submit | start | flush | setThreshold | addSink | removeSink | subscribe
        | unsubscribe | clearSession | clear => rfl
  · intro neverFull
    have none : ledger.evicted = [] := by
      refine none_evicted s _ moves fun before move covered => ?_
      have free := neverFull before move covered
      rw [pipeline_run, Move.evicting, if_neg]
      rintro ⟨enters, full⟩
      have capacityThen := (start.run s before).2
      rw [pipeline_run] at capacityThen
      exact absurd (full.trans capacityThen) (Nat.ne_of_lt (free enters))
    rw [ledger.taken_of_none_evicted none]
    exact balanced
  · have calls := handed_run s (opened (create capacity (outside, []))) rfl moves
    exact calls.trans (congrArg Ledger.due alike)

open Ledger in
/-- With room for two records, the first of three is evicted. The worker that is then started has handed
the second to both sinks, although one of them crashes, and has taken the third. -/
theorem taken_evicted_and_outstanding :
    let s := Surroundings.partlyFaulty (· == 1)
    let origin : Origin := ⟨⟨0⟩, 1⟩
    let record := fun message => Record.capture origin .info none message
    let submit : String → Move Nat Nat := .submit origin .info none
    let moves := [.addSink 0, .addSink 1, submit "a", submit "b", submit "c", .start, .work, .work,
      .work, .work, .work]
    let ledger := (opened (create 2 [])).run s moves
    let traced := (opened (create 2 ([], []))).run s.traced moves
    ledger.entered = [record "a", record "b", record "c"] ∧ ledger.evicted = [record "a"] ∧
      ledger.taken = [record "b", record "c"] ∧
      ledger.entered.Perm (ledger.taken ++ ledger.evicted ++ ledger.pipeline.backlog.toList) ∧
      consumed traced.pipeline.outside.2 = [(0, record "b"), (1, record "b")] ∧
      consumed traced.pipeline.outside.2 ++ traced.pipeline.worker.outstanding = ledger.due := by
  intro s origin record submit moves ledger traced
  obtain ⟨-, -, -, balanced, -, -, -, -, due⟩ := records_conserved s 2 [] moves
  have run : ledger.entered = [record "a", record "b", record "c"] ∧
      ledger.evicted = [record "a"] ∧ ledger.taken = [record "b", record "c"] ∧
      consumed traced.pipeline.outside.2 = [(0, record "b"), (1, record "b")] := by
    decide +kernel
  obtain ⟨entered, evicted, taken, calls⟩ := run
  exact ⟨entered, evicted, taken, balanced, calls, due⟩

end KeyValueService
