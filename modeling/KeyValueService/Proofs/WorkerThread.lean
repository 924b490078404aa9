import KeyValueService.Pipeline.Draining
import KeyValueService.Proofs.PipelineMoves
import Mathlib.Data.List.Induction
import Mathlib.Logic.Function.Iterate

/-!
# The worker as a thread

A pipeline describes a shutdown at once. What happens is spread over two threads: whoever shuts down
takes the handle of the worker's thread, raises a flag and waits until the thread has ended; the thread
looks for records, and for the flag only when there are none, and flushes the sinks on its way out. The
flag stays raised until the next start. Main statements: `pipeline_of_run`, by which all of this
comes to what the pipeline says, and `exists_run`, by which every operation returns.

Operations are issued one after the other, so nobody starts a pipeline while another one waits for its
worker to end. A thread can always be had.
-/

namespace KeyValueService

/-- A pipeline with the handle of its worker's thread and the flag by which that is told to stop. A
thread on its way out has left its loop and has some of the sinks still to flush. -/
structure Engine (ι κ σ : Type) where
  pipeline : Pipeline ι κ σ
  held : Bool
  stopping : Bool
  leaving : Option (List ι)

namespace Pipeline

variable {ι κ σ : Type} {p : Pipeline ι κ σ}

theorem worker_of_not_isRunning (stopped : p.isRunning = false) : p.worker = .stopped := by
  cases state : p.worker with
  | stopped => rfl
  | waiting | delivering => simp [isRunning, state] at stopped

theorem start_of_isRunning (running : p.isRunning) : p.start = p := by
  cases state : p.worker with
  | stopped => simp [isRunning, state] at running
  | waiting | delivering => simp [start, state]

theorem shutdown_of_not_isRunning (s : Surroundings ι κ σ) (stopped : p.isRunning = false)
    (flushing : Bool) : p.shutdown s flushing = p := by
  simp [shutdown, stopped]

/-- After a shutdown there is no worker. -/
theorem isRunning_shutdown (s : Surroundings ι κ σ) (p : Pipeline ι κ σ) (flushing : Bool) :
    (p.shutdown s flushing).isRunning = false := by
  cases running : p.isRunning with
  | true => cases flushing <;> simp only [shutdown, if_pos running] <;> rfl
  | false => rw [shutdown_of_not_isRunning s running, running]

end Pipeline

namespace Engine

open Pipeline

variable {ι κ σ : Type}

/-- An engine without a thread. -/
def create (capacity : Nat) (outside : σ) : Engine ι κ σ :=
  ⟨.create capacity outside, false, false, none⟩

/-- One step of the thread. With nothing to deliver it looks at the flag, and leaves if that is raised. -/
def turn (s : Surroundings ι κ σ) (e : Engine ι κ σ) : Engine ι κ σ :=
  match e.leaving with
  | some (sink :: rest) =>
    { e with
      pipeline := e.pipeline.withOutside (s.reportFlush (s.flush sink e.pipeline.outside))
      leaving := some rest }
  | some [] => { e with pipeline := { e.pipeline with worker := .stopped }, leaving := none }
  | none =>
    match e.pipeline.worker, e.pipeline.backlog.pop?, e.stopping with
    | .waiting, none, true => { e with leaving := some e.pipeline.sinks }
    | _, _, _ => { e with pipeline := e.pipeline.work s }

/-- A thread is started unless there is a handle, with the flag lowered. -/
def start (e : Engine ι κ σ) : Engine ι κ σ :=
  if e.held then e
  else { e with pipeline := { e.pipeline with worker := .waiting }, held := true, stopping := false }

/-- The handle is taken and the flag raised. -/
def ask (e : Engine ι κ σ) : Engine ι κ σ :=
  { e with held := false, stopping := true }

/-- The thread has ended. -/
def Ended (e : Engine ι κ σ) : Prop :=
  e.pipeline.worker = .stopped ∧ e.leaving = none

/-- What was asked for on top once the thread has ended. -/
def flushed (s : Surroundings ι κ σ) (flushing : Bool) (e : Engine ι κ σ) : Engine ι κ σ :=
  if flushing then { e with pipeline := e.pipeline.flush s } else e

section Operations

variable [DecidableEq ι]

/-- What an operation does. To shut down is to wait for any number of steps after which the thread has
ended. All operations but those on the thread are those of the pipeline. -/
inductive Operates (s : Surroundings ι κ σ) : Engine ι κ σ → Move ι κ → Engine ι κ σ → Prop
  | start (e : Engine ι κ σ) : Operates s e .start e.start
  | work (e : Engine ι κ σ) : Operates s e .work (e.turn s)
  | shutdown (e : Engine ι κ σ) (flushing : Bool) (n : Nat) (held : e.held)
      (ended : ((turn s)^[n] e.ask).Ended) :
      Operates s e (.shutdown flushing) (((turn s)^[n] e.ask).flushed s flushing)
  | unheld (e : Engine ι κ σ) (flushing : Bool) (unheld : e.held = false) :
      Operates s e (.shutdown flushing) e
  | other (e : Engine ι κ σ) (move : Move ι κ) (notStart : move ≠ .start) (notWork : move ≠ .work)
      (notShutdown : ∀ flushing, move ≠ .shutdown flushing) :
      Operates s e move { e with pipeline := move.apply s e.pipeline }

/-- Operations, one after the other. -/
inductive Run (s : Surroundings ι κ σ) (start : Engine ι κ σ) : List (Move ι κ) → Engine ι κ σ → Prop
  | done : Run s start [] start
  | step {moves : List (Move ι κ)} {move : Move ι κ} {e e' : Engine ι κ σ}
      (earlier : Run s start moves e) (operates : Operates s e move e') :
      Run s start (moves ++ [move]) e'

end Operations

/-- Between operations there is a handle exactly if there is a thread, and the thread of which there is
a handle is not told to stop. -/
structure Sound (e : Engine ι κ σ) : Prop where
  held : e.held = e.pipeline.isRunning
  lowered : e.held → e.stopping = false
  inLoop : e.leaving = none

variable {s : Surroundings ι κ σ} {e : Engine ι κ σ}

/-- Where the thread has ended, nothing is left to be done by it. -/
theorem turns_of_ended (s : Surroundings ι κ σ) (n : Nat) (ended : e.Ended) : (turn s)^[n] e = e := by
  refine Function.iterate_fixed ?_ n
  obtain ⟨pipeline, held, stopping, leaving⟩ := e
  obtain ⟨stopped, inLoop⟩ := ended
  simp only [turn] at stopped inLoop ⊢
  subst inLoop
  simp [stopped, work]

/-- In its loop, the thread takes a step of the worker unless there is nothing to do and the flag is
raised. -/
theorem turn_eq_work (s : Surroundings ι κ σ) (inLoop : e.leaving = none)
    (stays : e.pipeline.worker = .waiting → e.pipeline.backlog.pop? = none → e.stopping ≠ true) :
    e.turn s = { e with pipeline := e.pipeline.work s } := by
  -- By `stays`, the last case of `turn` applies.
  simp only [turn, inLoop]

/-- In its loop, the thread takes the steps of the worker, those apart in which the worker waits. -/
theorem turns_of_workSteps (s : Surroundings ι κ σ) (n : Nat) (e : Engine ι κ σ)
    (inLoop : e.leaving = none) :
    ∃ m, (turn s)^[m] e = { e with pipeline := e.pipeline.workSteps s n } := by
  induction n generalizing e with
  | zero => exact ⟨0, rfl⟩
  | succ n inductionHypothesis =>
    by_cases idle : e.pipeline.worker = .waiting ∧ e.pipeline.backlog.pop? = none
    · have still : e.pipeline.work s = e.pipeline := by simp [work, idle]
      obtain ⟨m, reached⟩ := inductionHypothesis e inLoop
      exact ⟨m, by rw [reached, workSteps, still]⟩
    · have step : e.turn s = { e with pipeline := e.pipeline.work s } :=
        turn_eq_work s inLoop fun waiting none _ => idle ⟨waiting, none⟩
      obtain ⟨m, reached⟩ := inductionHypothesis (e.turn s) (by rw [step]; exact inLoop)
      exact ⟨m + 1, by rw [Function.iterate_succ_apply, reached, step]; rfl⟩

/-- On its way out, the thread flushes the sinks that it has still to flush, and ends. -/
theorem turns_of_leaving (s : Surroundings ι κ σ) (sinks : List ι) (e : Engine ι κ σ)
    (leaving : e.leaving = some sinks) :
    (turn s)^[sinks.length + 1] e =
      { e with
        pipeline := { e.pipeline with
          worker := .stopped
          outside := s.flushAll sinks e.pipeline.outside }
        leaving := none } := by
  induction sinks generalizing e with
  | nil => simp [turn, leaving, Surroundings.flushAll]
  | cons sink rest inductionHypothesis =>
    have step : e.turn s =
        { e with
          pipeline := e.pipeline.withOutside (s.reportFlush (s.flush sink e.pipeline.outside))
          leaving := some rest } := by
      simp only [turn, leaving]
    rw [List.length_cons, Function.iterate_succ_apply, inductionHypothesis (e.turn s) (by rw [step]),
      step]
    rfl

/-- A thread that is told to stop delivers what waits, flushes the sinks and ends. -/
theorem turns_of_ask (s : Surroundings ι κ σ) (e : Engine ι κ σ) (running : e.pipeline.isRunning)
    (inLoop : e.leaving = none) :
    ∃ n, (turn s)^[n] e.ask = { e.ask with pipeline := e.pipeline.shutdown s false } := by
  obtain ⟨steps, drained⟩ := drain_eq_workSteps s e.pipeline
  obtain ⟨m, reached⟩ := turns_of_workSteps s steps e.ask inLoop
  have atRest : (e.pipeline.drain s).worker = .waiting ∧
      (e.pipeline.drain s).backlog.pop? = none := by
    rw [Backlog.pop?_eq_none_iff]
    cases state : e.pipeline.worker with
    | stopped => simp [isRunning, state] at running
    | waiting => simp [drain, state]
    | delivering r remaining => simp [drain, state]
  have left : turn s ((turn s)^[m] e.ask) =
      { e.ask with pipeline := e.pipeline.drain s, leaving := some (e.pipeline.drain s).sinks } := by
    have pipeline : e.ask.pipeline.workSteps s steps = e.pipeline.drain s := drained
    have none : e.ask.leaving = none := inLoop
    rw [reached, pipeline, turn]
    simp only [none, atRest]
    rfl
  refine ⟨(e.pipeline.drain s).sinks.length + 1 + (m + 1), ?_⟩
  rw [Function.iterate_add_apply _ _ (m + 1), Function.iterate_succ_apply' _ m, left,
    turns_of_leaving s (e.pipeline.drain s).sinks _ rfl]
  simp [shutdown, running, flush, ask, inLoop]

/-- Once a thread that was told to stop has ended, the pipeline is shut down, no matter when that is
noticed, since the thread does nothing after its end. -/
theorem turns_eq_of_ended (s : Surroundings ι κ σ) (e : Engine ι κ σ) (running : e.pipeline.isRunning)
    (inLoop : e.leaving = none) (n : Nat) (ended : ((turn s)^[n] e.ask).Ended) :
    (turn s)^[n] e.ask = { e.ask with pipeline := e.pipeline.shutdown s false } := by
  obtain ⟨m, reached⟩ := turns_of_ask s e running inLoop
  have down : ((turn s)^[m] e.ask).Ended := by
    rw [reached]
    exact ⟨by simp [shutdown, running], inLoop⟩
  calc (turn s)^[n] e.ask
      = (turn s)^[m] ((turn s)^[n] e.ask) := (turns_of_ended s m ended).symm
    _ = (turn s)^[n] ((turn s)^[m] e.ask) := by
      rw [← Function.iterate_add_apply, ← Function.iterate_add_apply, Nat.add_comm]
    _ = (turn s)^[m] e.ask := turns_of_ended s n down
    _ = { e.ask with pipeline := e.pipeline.shutdown s false } := reached

/-- To flush on top is what a shutdown does that is asked to. -/
theorem flush_shutdown (s : Surroundings ι κ σ) (p : Pipeline ι κ σ) (running : p.isRunning) :
    (p.shutdown s false).flush s = p.shutdown s true := by
  simp [shutdown, running]

theorem sound_create (capacity : Nat) (outside : σ) :
    (create capacity outside : Engine ι κ σ).Sound :=
  ⟨rfl, fun held => absurd held Bool.false_ne_true, rfl⟩

theorem isRunning_work (s : Surroundings ι κ σ) (p : Pipeline ι κ σ) :
    (p.work s).isRunning = p.isRunning := by
  cases state : p.worker with
  | stopped => simp [work, state, isRunning]
  | waiting => cases popped : p.backlog.pop? <;> simp [work, state, popped, isRunning]
  | delivering r remaining => cases remaining <;> simp [work, state, isRunning]

variable [DecidableEq ι] {move : Move ι κ} {e' : Engine ι κ σ}

/-- No move but those on the thread makes the worker do anything. -/
theorem worker_apply (s : Surroundings ι κ σ) (p : Pipeline ι κ σ) (notStart : move ≠ .start)
    (notWork : move ≠ .work) (notShutdown : ∀ flushing, move ≠ .shutdown flushing) :
    (move.apply s p).worker = p.worker := by
  cases move with
  | start => exact absurd rfl notStart
  | work => exact absurd rfl notWork
  | shutdown flushing => exact absurd rfl (notShutdown flushing)
  | submit origin level session message =>
    by_cases accepted : p.accepts level <;> simp [Move.apply, submit, accepted, announce, enqueue]
  | clearSession session => simp [Move.apply, clearSession_eq, withOutside]
  | clear => simp [Move.apply, clear_eq, withOutside]
  | announce | enqueue | flush | setThreshold | addSink | removeSink | subscribe | unsubscribe => rfl

/-- Every operation comes to what the pipeline says, and leaves handle, flag and thread in order. -/
theorem Sound.operates (sound : e.Sound) (operates : Operates s e move e') :
    e'.pipeline = move.apply s e.pipeline ∧ e'.Sound := by
  obtain ⟨handle, lowered, inLoop⟩ := sound
  cases operates with
  | start =>
    cases held : e.held with
    | true =>
      have running : e.pipeline.isRunning := handle.symm.trans held
      rw [Engine.start, if_pos held]
      exact ⟨(start_of_isRunning running).symm, handle, lowered, inLoop⟩
    | false =>
      have stopped := worker_of_not_isRunning (handle.symm.trans held)
      rw [Engine.start, if_neg (by simp [held])]
      exact ⟨by simp [Move.apply, Pipeline.start, stopped], rfl, fun _ => rfl, inLoop⟩
  | work =>
    have step : e.turn s = { e with pipeline := e.pipeline.work s } := by
      refine turn_eq_work s inLoop fun waiting _ raised => ?_
      have held : e.held = true := by rw [handle, isRunning, waiting]
      exact absurd (raised.symm.trans (lowered held)) (by decide)
    rw [step]
    exact ⟨rfl, handle.trans (isRunning_work s e.pipeline).symm, lowered, inLoop⟩
  | shutdown flushing n held ended =>
    have running : e.pipeline.isRunning := handle.symm.trans held
    have down := turns_eq_of_ended s e running inLoop n ended
    have pipeline : (((turn s)^[n] e.ask).flushed s flushing).pipeline =
        e.pipeline.shutdown s flushing := by
      rw [down, flushed]
      cases flushing with
      | false => rfl
      | true => exact flush_shutdown s e.pipeline running
    have rest : ((turn s)^[n] e.ask).flushed s flushing =
        { e.ask with pipeline := e.pipeline.shutdown s flushing } := by
      rw [← pipeline, down, flushed]
      cases flushing <;> rfl
    rw [rest]
    exact ⟨rfl, (isRunning_shutdown s e.pipeline flushing).symm,
      fun held => absurd held Bool.false_ne_true, inLoop⟩
  | unheld flushing unheld =>
    have stopped : e.pipeline.isRunning = false := handle.symm.trans unheld
    exact ⟨(shutdown_of_not_isRunning s stopped flushing).symm, handle, lowered, inLoop⟩
  | other _ notStart notWork notShutdown =>
    have worker := worker_apply s e.pipeline notStart notWork notShutdown
    exact ⟨rfl, handle.trans (by rw [isRunning, isRunning, worker]), lowered, inLoop⟩

/-- Every operation returns. -/
theorem Sound.operates_some (sound : e.Sound) (s : Surroundings ι κ σ) (move : Move ι κ) :
    ∃ e', Operates s e move e' := by
  cases move with
  | start => exact ⟨_, .start e⟩
  | work => exact ⟨_, .work e⟩
  | shutdown flushing =>
    cases held : e.held with
    | true =>
      have running : e.pipeline.isRunning := sound.held.symm.trans held
      obtain ⟨n, down⟩ := turns_of_ask s e running sound.inLoop
      refine ⟨_, .shutdown e flushing n held ?_⟩
      rw [down]
      exact ⟨by simp [shutdown, running], sound.inLoop⟩
    | false => exact ⟨_, .unheld e flushing held⟩
  | announce | enqueue | submit | flush | setThreshold | addSink | removeSink | subscribe
    | unsubscribe | clearSession | clear =>
    exact ⟨_, .other e _ (by simp) (by simp) (by simp)⟩

/-- In every run of operations, handle, flag and thread come to what the pipeline says. -/
theorem pipeline_of_run {capacity : Nat} {outside : σ} {moves : List (Move ι κ)}
    (run : Run s (create capacity outside) moves e) :
    e.pipeline = (Pipeline.create capacity outside).run s moves ∧ e.Sound := by
  induction run with
  | done => exact ⟨rfl, sound_create capacity outside⟩
  | step earlier operates inductionHypothesis =>
    obtain ⟨pipeline, sound⟩ := inductionHypothesis
    rw [run_append, ← pipeline]
    exact sound.operates operates

/-- No operation of a run is stuck. -/
theorem exists_run (s : Surroundings ι κ σ) (capacity : Nat) (outside : σ) (moves : List (Move ι κ)) :
    ∃ e, Run s (create capacity outside) moves e := by
  induction moves using List.reverseRecOn with
  | nil => exact ⟨_, .done⟩
  | append_singleton moves move inductionHypothesis =>
    obtain ⟨e, run⟩ := inductionHypothesis
    obtain ⟨e', operates⟩ := (pipeline_of_run run).2.operates_some s move
    exact ⟨e', .step run operates⟩

end Engine

end KeyValueService
