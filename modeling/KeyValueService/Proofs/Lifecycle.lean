import KeyValueService.Proofs.LatestItems
import KeyValueService.Proofs.RecordConservation
import KeyValueService.Proofs.WorkerThread

/-!
# Starting and shutting down

A pipeline may be started and shut down any number of times, in any order, with records coming all the
while. Main statement: `shutdown_exact`. A shutdown of a running pipeline delivers all that waits and
then flushes; without a worker nothing is delivered, and what waits is delivered first once there is
one again; starting what runs and shutting down what does not run change nothing.

That a shutdown is spread over two threads and a flag between them makes no difference (`Engine`).
-/

namespace KeyValueService

open Pipeline

section

variable {ι : Type}

/-- The sink that receives a call. -/
def Call.receiver : Call ι → ι
  | consume sink _ => sink
  | flush sink => sink

variable [DecidableEq ι]

/-- The calls that a sink receives. -/
def callsTo (sink : ι) (calls : List (Call ι)) : List (Call ι) :=
  calls.filter (·.receiver = sink)

theorem callsTo_append (sink : ι) (calls more : List (Call ι)) :
    callsTo sink (calls ++ more) = callsTo sink calls ++ callsTo sink more :=
  List.filter_append calls more

theorem callsTo_consume (sink : ι) (due : List (ι × Record)) :
    callsTo sink (due.map fun call => .consume call.1 call.2) =
      (due.filter (·.1 = sink)).map fun call => .consume call.1 call.2 := by
  rw [callsTo, List.filter_map]
  rfl

/-- A sink is flushed once for each of its registrations. -/
theorem callsTo_flush (sink : ι) (sinks : List ι) :
    callsTo sink (sinks.map .flush) = List.replicate (sinks.count sink) (.flush sink) := by
  have own : (sinks.filter fun other => decide ((Call.flush other).receiver = sink)) =
      List.replicate (sinks.count sink) sink := by
    rw [← List.filter_eq]
    rfl
  rw [callsTo, List.filter_map, Function.comp_def, own, List.map_replicate]

/-- What a sink gets of the last deliveries and of the flushes after them, of which there are two rounds
on request. -/
theorem callsTo_last (sink : ι) (due : List (ι × Record)) (sinks : List ι) (flushing : Bool) :
    callsTo sink (due.map (fun call => .consume call.1 call.2) ++
        (sinks.map .flush ++ if flushing then sinks.map .flush else [])) =
      (due.filter (·.1 = sink)).map (fun call => .consume call.1 call.2) ++
        .replicate ((if flushing then 2 else 1) * sinks.count sink) (.flush sink) := by
  rw [callsTo_append, callsTo_consume, callsTo_append, callsTo_flush]
  cases flushing with
  | false => simp [callsTo]
  | true => simp [callsTo_flush, Nat.two_mul]

end

namespace Pipeline

variable {ι κ σ : Type} {p : Pipeline ι κ σ}

/-- The deliveries that are left to make before a shutdown: those of the record being delivered, and
those of the records that wait, to the sinks registered. -/
def remaining (p : Pipeline ι κ σ) : List (ι × Record) :=
  p.worker.outstanding ++ p.backlog.toList.flatMap fun r => p.sinks.map (·, r)

variable [DecidableEq ι]

/-- Without a worker, no move but a start changes that, and records only come. -/
theorem apply_of_not_isRunning (s : Surroundings ι κ σ) (stopped : p.isRunning = false)
    {move : Move ι κ} (notStart : move ≠ .start) :
    (move.apply s p).isRunning = false ∧
      (move.apply s p).backlog.toList =
        (p.backlog.toList ++ move.entering p).rtake p.backlog.capacity ∧
      move.taking p = [] := by
  have worker := worker_of_not_isRunning stopped
  have bound : p.backlog.toList.rtake p.backlog.capacity = p.backlog.toList := by
    refine rtake_of_length_le ?_
    rw [Backlog.length_toList]
    exact p.backlog.size_le
  cases move with
  | start => exact absurd rfl notStart
  | enqueue r => exact ⟨stopped, p.backlog.toList_push_rtake r, rfl⟩
  | submit origin level session message =>
    by_cases accepted : p.accepts level
    · simp only [Move.apply, submit, if_pos accepted, Move.entering, Move.taking, and_true]
      exact ⟨stopped, p.backlog.toList_push_rtake _⟩
    · simp only [Move.apply, submit, if_neg accepted, Move.entering, Move.taking, List.append_nil,
        and_true]
      exact ⟨stopped, bound.symm⟩
  | work =>
    have still : p.work s = p := by simp [work, worker]
    simp only [Move.apply, still, Move.entering, List.append_nil]
    exact ⟨stopped, bound.symm, by simp [Move.taking, worker]⟩
  | shutdown flushing =>
    simp only [Move.apply, shutdown_of_not_isRunning s stopped, Move.entering, List.append_nil]
    exact ⟨stopped, bound.symm, by simp [Move.taking, stopped]⟩
  | clearSession session =>
    simp only [Move.apply, clearSession_eq, Move.entering, Move.taking, List.append_nil, and_true]
    exact ⟨stopped, bound.symm⟩
  | clear =>
    simp only [Move.apply, clear_eq, Move.entering, Move.taking, List.append_nil, and_true]
    exact ⟨stopped, bound.symm⟩
  | announce | flush | setThreshold | addSink | removeSink | subscribe | unsubscribe =>
    simp only [Move.entering, Move.taking, List.append_nil, and_true]
    exact ⟨stopped, bound.symm⟩

end Pipeline

namespace Ledger

variable {ι κ σ : Type} [DecidableEq ι]

/-- Entries and departures are only ever added. -/
theorem run_extends (s : Surroundings ι κ σ) (ledger : Ledger ι κ σ) (moves : List (Move ι κ)) :
    ledger.entered <+: (ledger.run s moves).entered ∧ ledger.left <+: (ledger.run s moves).left := by
  induction moves generalizing ledger with
  | nil => exact ⟨List.prefix_refl _, List.prefix_refl _⟩
  | cons move rest inductionHypothesis =>
    obtain ⟨entered, left⟩ := inductionHypothesis (ledger.step s move)
    exact ⟨(List.prefix_append _ _).trans entered, (List.prefix_append _ _).trans left⟩

/-- Without a worker and without a start, records come, the oldest make room, and none is taken. -/
theorem run_of_not_isRunning (s : Surroundings ι κ σ) (ledger : Ledger ι κ σ)
    (stopped : ledger.pipeline.isRunning = false) (idle : List (Move ι κ)) (noStart : .start ∉ idle) :
    let later := ledger.run s idle
    later.pipeline.isRunning = false ∧ later.taken = ledger.taken ∧
    ∃ come, later.entered = ledger.entered ++ come ∧
      later.pipeline.backlog.toList =
        (ledger.pipeline.backlog.toList ++ come).rtake ledger.pipeline.backlog.capacity := by
  induction idle generalizing ledger with
  | nil =>
    refine ⟨stopped, rfl, [], (List.append_nil _).symm, ?_⟩
    rw [List.append_nil, rtake_of_length_le]
    · rfl
    · rw [Backlog.length_toList]
      exact ledger.pipeline.backlog.size_le
  | cons move rest inductionHypothesis =>
    obtain ⟨notStart, noLaterStart⟩ := not_or.1 (mt List.mem_cons.2 noStart)
    obtain ⟨still, backlog, none⟩ :=
      apply_of_not_isRunning s stopped (Ne.symm notStart)
    obtain ⟨stoppedLater, takenLater, come, enteredLater, backlogLater⟩ :=
      inductionHypothesis (ledger.step s move) still noLaterStart
    refine ⟨stoppedLater, takenLater.trans ?_, move.entering ledger.pipeline ++ come,
      enteredLater.trans (List.append_assoc _ _ _), backlogLater.trans ?_⟩
    · rw [taken_step, none, List.append_nil]
    · have capacity := ledger.pipeline.capacity_apply s move
      change ((move.apply s ledger.pipeline).backlog.toList ++ come).rtake
        (move.apply s ledger.pipeline).backlog.capacity = _
      rw [backlog, capacity, rtake_rtake_append, List.append_assoc]

/-- After a start, what waited leaves before what comes later. -/
theorem departures_behind (s : Surroundings ι κ σ) {ledger : Ledger ι κ σ} (balanced : ledger.Balanced)
    (moves : List (Move ι κ)) :
    ∃ come gone, (ledger.run s moves).entered = ledger.entered ++ come ∧
      (ledger.run s moves).left = ledger.left ++ gone ∧
      ledger.pipeline.backlog.toList ++ come =
        gone.map (·.1) ++ (ledger.run s moves).pipeline.backlog.toList := by
  obtain ⟨⟨come, entered⟩, gone, left⟩ := run_extends s ledger moves
  have after := (balanced.run s moves).1
  refine ⟨come, gone, entered.symm, left.symm, ?_⟩
  rw [Balanced, ← entered, ← left, balanced, List.map_append, List.append_assoc,
    List.append_assoc] at after
  exact List.append_cancel_left after

end Ledger

namespace Pipeline

variable {ι κ σ : Type}

/-- Once there is a worker again, it delivers what waits without any further help. -/
theorem delivers_remaining (s : Surroundings ι κ σ) {p : Pipeline ι κ (σ × List (Call ι))}
    (stopped : p.isRunning = false) :
    ∃ n, (p.start.workSteps s.traced n).backlog.toList = [] ∧
      (p.start.workSteps s.traced n).outside.2 =
        p.outside.2 ++ p.remaining.map fun due => .consume due.1 due.2 := by
  have worker := worker_of_not_isRunning stopped
  have started : p.start = { p with worker := .waiting } := by simp [start, worker]
  obtain ⟨n, drained⟩ := drain_eq_workSteps s.traced p.start
  refine ⟨n, ?_, ?_⟩
  · rw [drained, started]
    rfl
  · have calls := calls_drain s p.start (by rw [started]; rfl)
    rw [drained, calls, started]
    simp [remaining, worker, Worker.outstanding]

end Pipeline

open Ledger in
/-- After every run of a pipeline, from its creation, with the worker taking its steps in between:

* it makes no difference that the worker is a thread that is held by a handle and told to stop by a
  flag: handle, flag and thread come to the same, no operation is stuck, and there is a handle exactly
  if the pipeline runs;
* a shutdown of a running pipeline leaves nothing waiting and no worker. All that ever entered has been
  taken or evicted by then, and what was taken has been consumed by every sink registered when it was
  taken. The calls that the shutdown adds are the deliveries left to make and then one flush for each
  registration, and one more if that was asked for; a single sink gets its part of them;
* to start what runs and to shut down what does not run changes nothing and calls nobody;
* without a worker and without a start, the records that come are added to those that wait, of which
  the last stay, as many as the capacity allows; none is taken;
* after the next start, whatever happens, those that waited leave before those that come later, and
  sinks have been called for what was taken and nothing else; if only the worker goes on, it delivers
  all that waited.

Proof: a shutdown is a drain and flushes, whose calls are known (`calls_apply`); the ledger of the run
is balanced at every state. -/
theorem shutdown_exact {ι κ σ : Type} [DecidableEq ι] (s : Surroundings ι κ σ) (capacity : Nat)
    (outside : σ) (moves : List (Move ι κ)) :
    let ledger := (opened (.create capacity (outside, []))).run s.traced moves
    let p := ledger.pipeline
    ((∃ e, Engine.Run s.traced (.create capacity (outside, [])) moves e) ∧
      ∀ e, Engine.Run s.traced (.create capacity (outside, [])) moves e →
        e.pipeline = p ∧ e.held = p.isRunning) ∧
    (p.isRunning → ∀ flushing,
      let after := ledger.step s.traced (.shutdown flushing)
      let q := after.pipeline
      q.pending = 0 ∧ q.isRunning = false ∧
      after.entered = after.left.map (·.1) ∧ consumed q.outside.2 = after.due ∧
      q.outside.2 = p.outside.2 ++ (p.remaining.map (fun due => .consume due.1 due.2) ++
        (p.sinks.map .flush ++ if flushing then p.sinks.map .flush else [])) ∧
      ∀ sink, callsTo sink q.outside.2 = callsTo sink p.outside.2 ++
        ((p.remaining.filter (·.1 = sink)).map (fun due => .consume due.1 due.2) ++
          .replicate ((if flushing then 2 else 1) * p.sinks.count sink) (.flush sink))) ∧
    (p.isRunning → p.start = p) ∧
    (p.isRunning = false → ∀ flushing, p.shutdown s.traced flushing = p) ∧
    (p.isRunning = false → ∀ idle, .start ∉ idle →
      let later := ledger.run s.traced idle
      later.pipeline.isRunning = false ∧ later.taken = ledger.taken ∧
      ∃ come, later.entered = ledger.entered ++ come ∧
        later.pipeline.backlog.toList = (p.backlog.toList ++ come).rtake (max capacity 1)) ∧
    (p.isRunning = false → ∀ rest,
      let later := ledger.run s.traced (.start :: rest)
      (∃ come gone, later.entered = ledger.entered ++ come ∧ later.left = ledger.left ++ gone ∧
        p.backlog.toList ++ come = gone.map (·.1) ++ later.pipeline.backlog.toList) ∧
      consumed later.pipeline.outside.2 ++ later.pipeline.worker.outstanding = later.due) ∧
    (p.isRunning = false → ∃ n,
      (p.start.workSteps s.traced n).backlog.toList = [] ∧
      (p.start.workSteps s.traced n).outside.2 =
        p.outside.2 ++ p.remaining.map fun due => .consume due.1 due.2) := by
  intro ledger p
  have start : (opened (.create capacity (outside, [])) : Ledger ι κ (σ × List (Call ι))).Balanced :=
    rfl
  obtain ⟨balanced, room⟩ := start.run s.traced moves
  have followed : p = (Pipeline.create capacity (outside, [])).run s.traced moves :=
    pipeline_run s.traced _ moves
  have handedAll : ∀ more, (ledger.run s.traced more).pipeline.handed =
      (ledger.run s.traced more).due := by
    intro more
    rw [← Ledger.run_append]
    exact handed_run s (opened (.create capacity (outside, []))) rfl (moves ++ more)
  refine ⟨⟨Engine.exists_run s.traced capacity (outside, []) moves, fun e run => ?_⟩, ?_,
    start_of_isRunning, shutdown_of_not_isRunning s.traced, ?_, ?_, delivers_remaining s⟩
  · obtain ⟨pipeline, sound⟩ := Engine.pipeline_of_run run
    rw [← followed] at pipeline
    exact ⟨pipeline, by rw [sound.held, pipeline]⟩
  · intro running flushing after q
    have empty : q.backlog.toList = [] := by
      have left := p.backlog_shutdown s.traced flushing
      rwa [if_pos running] at left
    have calls : q.outside.2 = p.outside.2 ++ Move.calls p (.shutdown flushing : Move ι κ) :=
      p.calls_shutdown s flushing
    have made : Move.calls p (.shutdown flushing : Move ι κ) =
        p.remaining.map (fun due => .consume due.1 due.2) ++
          (p.sinks.map .flush ++ if flushing then p.sinks.map .flush else []) := if_pos running
    have stopped : q.isRunning = false := isRunning_shutdown s.traced p flushing
    have all := balanced.step s.traced (.shutdown flushing)
    have handed := handedAll [.shutdown flushing]
    rw [made] at calls
    refine ⟨?_, stopped, ?_, ?_, calls, fun sink => ?_⟩
    · rw [pending, ← Backlog.length_toList, empty, List.length_nil]
    · rw [all, empty, List.append_nil]
    · have none : q.worker.outstanding = [] := by
        rw [worker_of_not_isRunning stopped]
        rfl
      rw [← List.append_nil (consumed q.outside.2), ← none]
      exact handed
    · rw [calls, callsTo_append, callsTo_last]
  · intro stopped idle noStart later
    have capacityKept : p.backlog.capacity = max capacity 1 := room
    rw [← capacityKept]
    exact ledger.run_of_not_isRunning s.traced stopped idle noStart
  · intro _ rest later
    exact ⟨departures_behind s.traced balanced (.start :: rest), handedAll (.start :: rest)⟩

open Ledger in
/-- A sink is registered twice. The worker has handed it the first of two records once when the pipeline is
shut down with a flush: the other three deliveries come first, then two flushes for each registration. -/
theorem shutdown_within_delivery :
    let s := Surroundings.partlyFaulty fun _ => false
    let record := fun message => Record.capture ⟨⟨0⟩, 1⟩ .info none message
    let submit : String → Move Nat Nat := .submit ⟨⟨0⟩, 1⟩ .info none
    let moves := [.addSink 0, .addSink 0, .start, submit "a", submit "b", .work, .work]
    let ledger := (opened (.create 4 ([], []))).run s.traced moves
    let after := ledger.step s.traced (.shutdown true)
    ledger.pipeline.isRunning = true ∧
      ledger.pipeline.outside.2 = [.consume 0 (record "a")] ∧
      after.pipeline.pending = 0 ∧ after.pipeline.isRunning = false ∧
      after.pipeline.outside.2 = [.consume 0 (record "a"), .consume 0 (record "a"),
        .consume 0 (record "b"), .consume 0 (record "b"), .flush 0, .flush 0, .flush 0, .flush 0] ∧
      consumed after.pipeline.outside.2 = after.due := by
  intro s record submit moves ledger after
  have run : ledger.pipeline.isRunning = true ∧
      ledger.pipeline.outside.2 = [.consume 0 (record "a")] ∧
      after.pipeline.outside.2 = [.consume 0 (record "a"), .consume 0 (record "a"),
        .consume 0 (record "b"), .consume 0 (record "b"), .flush 0, .flush 0, .flush 0, .flush 0] := by
    decide +kernel
  obtain ⟨running, before, calls⟩ := run
  obtain ⟨drained, stopped, -, due, -, -⟩ := (shutdown_exact s 4 [] moves).2.1 running true
  exact ⟨running, before, drained, stopped, calls, due⟩

end KeyValueService
