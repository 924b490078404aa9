import KeyValueService.Proofs.RecordConservation

/-!
# Isolation of faults

Sinks and subscribers may fail or crash at any call. Here every call is observed with how it ended,
and every report with the place where it is made. Main statement: `faults_isolated`. Which calls the
sinks receive is settled by the moves alone, whatever becomes of the calls, so no sink can tell from
its own calls whether the others ever fail; and what goes wrong is reported at once, and nothing else
is.

What sinks do with the records is left open, as is what a report looks like where it arrives.
-/

namespace KeyValueService

/-- A call to a sink or to a subscriber, with how it ended. -/
inductive Attempt (ι κ : Type)
  | consume (sink : ι) (r : Record) (outcome : Outcome)
  | flush (sink : ι) (outcome : Outcome)
  | notify (subscriber : κ) (r : Record) (waiting : Nat) (returned : Bool)
  deriving DecidableEq, Repr

/-- A call that has ended, or a report. -/
inductive Occurrence (ι κ : Type)
  | attempt (a : Attempt ι κ)
  | report (r : Report)
  deriving DecidableEq, Repr

section Occurrences

variable {ι κ : Type}

namespace Attempt

/-- The call that a sink receives. -/
def call? : Attempt ι κ → Option (Call ι)
  | consume sink r _ => some (.consume sink r)
  | flush sink _ => some (.flush sink)
  | notify _ _ _ _ => none

/-- The report that is due after a call that went wrong. -/
def fault? : Attempt ι κ → Option Report
  | consume _ _ (.failed e) => some (.consumeFailed e)
  | consume _ _ .crashed => some .consumeCrashed
  | flush _ (.failed e) => some (.flushFailed e)
  | flush _ .crashed => some .flushCrashed
  | notify _ _ _ false => some .subscriberCrashed
  | _ => none

/-- A call and the report that is due after it, if any. -/
def occurrences (a : Attempt ι κ) : List (Occurrence ι κ) :=
  .attempt a :: (a.fault?.map .report).toList

end Attempt

/-- The calls among what occurred. -/
def attempts (occurred : List (Occurrence ι κ)) : List (Attempt ι κ) :=
  occurred.filterMap fun
    | .attempt a => some a
    | .report _ => none

/-- The calls that sinks received. -/
def callsOf (occurred : List (Occurrence ι κ)) : List (Call ι) :=
  (attempts occurred).filterMap Attempt.call?

/-- Every call that went wrong is followed at once by its report, and there are no other reports. -/
def Answered (occurred : List (Occurrence ι κ)) : Prop :=
  occurred = (attempts occurred).flatMap Attempt.occurrences

theorem attempts_append (occurred more : List (Occurrence ι κ)) :
    attempts (occurred ++ more) = attempts occurred ++ attempts more :=
  List.filterMap_append

theorem attempts_occurrences (a : Attempt ι κ) : attempts a.occurrences = [a] := by
  unfold Attempt.occurrences
  cases a.fault? <;> rfl

theorem callsOf_append (occurred : List (Occurrence ι κ)) (a : Attempt ι κ) :
    callsOf (occurred ++ a.occurrences) = callsOf occurred ++ a.call?.toList := by
  rw [callsOf, attempts_append, attempts_occurrences, List.filterMap_append]
  rfl

theorem Answered.append {occurred : List (Occurrence ι κ)} (answered : Answered occurred)
    (a : Attempt ι κ) : Answered (occurred ++ a.occurrences) := by
  rw [Answered, attempts_append, attempts_occurrences, List.flatMap_append, ← answered,
    List.flatMap_singleton]

end Occurrences

namespace Surroundings

variable {ι κ σ : Type}

/-- The surroundings with all that occurs beside their state. -/
def observed (s : Surroundings ι κ σ) : Surroundings ι κ (σ × List (Occurrence ι κ)) where
  consume sink r w :=
    let (v, outcome) := s.consume sink r w.1
    ((v, w.2 ++ [.attempt (.consume sink r outcome)]), outcome)
  flush sink w :=
    let (v, outcome) := s.flush sink w.1
    ((v, w.2 ++ [.attempt (.flush sink outcome)]), outcome)
  notify subscriber r waiting w :=
    let (v, returned) := s.notify subscriber r waiting w.1
    ((v, w.2 ++ [.attempt (.notify subscriber r waiting returned)]), returned)
  report r w := (s.report r w.1, w.2 ++ [.report r])
  history? sink w := s.history? sink w.1
  setHistory sink h w := (s.setHistory sink h w.1, w.2)

/-- A call to consume and its report occur together. -/
theorem observed_consume (s : Surroundings ι κ σ) (sink : ι) (r : Record)
    (w : σ × List (Occurrence ι κ)) :
    s.observed.reportConsume (s.observed.consume sink r w) =
      (s.reportConsume (s.consume sink r w.1),
        w.2 ++ (Attempt.consume sink r (s.consume sink r w.1).2).occurrences) := by
  cases called : s.consume sink r w.1 with
  | mk v outcome =>
    cases outcome <;>
      simp [observed, called, reportConsume, Attempt.occurrences, Attempt.fault?]

theorem observed_flush (s : Surroundings ι κ σ) (sink : ι) (w : σ × List (Occurrence ι κ)) :
    s.observed.reportFlush (s.observed.flush sink w) =
      (s.reportFlush (s.flush sink w.1),
        w.2 ++ (Attempt.flush sink (s.flush sink w.1).2).occurrences) := by
  cases called : s.flush sink w.1 with
  | mk v outcome =>
    cases outcome <;> simp [observed, called, reportFlush, Attempt.occurrences, Attempt.fault?]

theorem observed_notify (s : Surroundings ι κ σ) (subscriber : κ) (r : Record) (waiting : Nat)
    (w : σ × List (Occurrence ι κ)) :
    s.observed.notifyAll r waiting [subscriber] w =
      (s.notifyAll r waiting [subscriber] w.1,
        w.2 ++ (Attempt.notify subscriber r waiting
          (s.notify subscriber r waiting w.1).2).occurrences) := by
  cases called : s.notify subscriber r waiting w.1 with
  | mk v returned =>
    cases returned <;>
      simp [observed, called, notifyAll, Attempt.occurrences, Attempt.fault?]

theorem observed_changeHistory (s : Surroundings ι κ σ) (change : History → History)
    (sinks : List ι) (w : σ × List (Occurrence ι κ)) :
    s.observed.changeHistory change sinks w = (s.changeHistory change sinks w.1, w.2) := by
  simp only [changeHistory, observed]
  cases sinks.findSome? fun sink => (s.history? sink w.1).map (sink, ·) <;> rfl

/-- In any two surroundings the same calls are made, whatever comes of them. -/
theorem keeps_calls {τ : Type} (s : Surroundings ι κ σ) (t : Surroundings ι κ τ) :
    s.observed.Keeps (fun w v => callsOf w.2 = callsOf v.2) t.observed where
  consume sink r w v same := by
    simp only [observed_consume, callsOf_append, same, Attempt.call?]
  flush sink w v same := by
    simp only [observed_flush, callsOf_append, same, Attempt.call?]
  notify subscriber r waiting w v same := by
    simp only [observed_notify, callsOf_append, same, Attempt.call?]
  changeHistory change sinks w v same := by
    simp only [observed_changeHistory, same]

/-- To observe what occurs is to trace the calls that sinks receive, and more. -/
theorem keeps_observed (s : Surroundings ι κ σ) :
    s.observed.Keeps (fun w v => (w.1, callsOf w.2) = v) s.traced where
  consume sink r w v same := by
    subst same
    rw [observed_consume, callsOf_append]
    exact (s.traced_reportConsume (_, _) _).symm
  flush sink w v same := by
    subst same
    rw [observed_flush, callsOf_append]
    exact (s.traced_reportFlush (_, _) _).symm
  notify subscriber r waiting w v same := by
    subst same
    rw [observed_notify, callsOf_append, traced_notifyAll]
    simp [Attempt.call?]
  changeHistory change sinks w v same := by
    subst same
    rw [observed_changeHistory]
    simp only [changeHistory, traced]
    cases sinks.findSome? fun sink => (s.history? sink w.1).map (sink, ·) <;> rfl

/-- Whatever is called for, what went wrong is reported at once, and nothing else is. -/
theorem keeps_answered (s : Surroundings ι κ σ) :
    s.observed.Keeps (fun w _ => Answered w.2) s.observed where
  consume sink r w _ answered := by
    rw [observed_consume]
    exact answered.append _
  flush sink w _ answered := by
    rw [observed_flush]
    exact answered.append _
  notify subscriber r waiting w _ answered := by
    rw [observed_notify]
    exact answered.append _
  changeHistory change sinks w _ answered := by
    rw [observed_changeHistory]
    exact answered

end Surroundings

namespace Pipeline

variable {ι κ σ : Type} [DecidableEq ι]

/-- Whether a move takes back the registrations of a sink. -/
def Move.removes (sink : ι) : Move ι κ → Bool
  | .removeSink other => other = sink
  | _ => false

/-- The registrations of sinks in moves that no later one takes back, in order. -/
def registered : List (Move ι κ) → List ι
  | [] => []
  | .addSink sink :: rest =>
    if rest.any (·.removes sink) then registered rest else sink :: registered rest
  | _ :: rest => registered rest

/-- The sinks registered after a move. -/
def Move.registering (sinks : List ι) : Move ι κ → List ι
  | .addSink sink => sinks ++ [sink]
  | .removeSink sink => sinks.filter (· ≠ sink)
  | _ => sinks

theorem sinks_apply (s : Surroundings ι κ σ) (p : Pipeline ι κ σ) (move : Move ι κ) :
    (move.apply s p).sinks = move.registering p.sinks := by
  obtain ⟨backlog, worker, outside, framed⟩ := p.apply_frame s move
  rw [framed]
  cases move <;> rfl

/-- A sink added comes last; a sink removed goes wherever it stood, and the others stay in order. -/
theorem registered_append (moves : List (Move ι κ)) (move : Move ι κ) :
    registered (moves ++ [move]) = move.registering (registered moves) := by
  induction moves with
  | nil => cases move <;> simp [registered, Move.registering]
  | cons first rest inductionHypothesis =>
    cases first with
    | addSink sink =>
      simp only [List.cons_append, registered, List.any_append, List.any_cons, List.any_nil,
        Bool.or_false, inductionHypothesis]
      cases earlier : rest.any (·.removes sink) with
      | true => simp
      | false =>
        cases move with
        | removeSink other =>
          by_cases same : other = sink
          · simp [Move.removes, Move.registering, same]
          · simp [Move.removes, Move.registering, same, Ne.symm same]
        | _ => simp [Move.removes, Move.registering]
    | _ => exact inductionHypothesis

theorem sinks_run (s : Surroundings ι κ σ) (capacity : Nat) (outside : σ) (moves : List (Move ι κ)) :
    ((create capacity outside).run s moves).sinks = registered moves := by
  induction moves using List.reverseRecOn with
  | nil => rfl
  | append_singleton moves move inductionHypothesis =>
    rw [run_append, registered_append, ← inductionHypothesis]
    exact sinks_apply s _ move

/-- The pipeline with the calls that sinks received in place of all that occurred. -/
def calling (p : Pipeline ι κ (σ × List (Occurrence ι κ))) : Pipeline ι κ (σ × List (Call ι)) :=
  p.withOutside (p.outside.1, callsOf p.outside.2)

theorem calling_apply (s : Surroundings ι κ σ) (p : Pipeline ι κ (σ × List (Occurrence ι κ)))
    (move : Move ι κ) : (move.apply s.observed p).calling = move.apply s.traced p.calling := by
  obtain ⟨inside, same⟩ := alike_apply s.keeps_observed p move rfl
  rw [calling, same]
  exact inside.symm

theorem calling_run (s : Surroundings ι κ σ) (p : Pipeline ι κ (σ × List (Occurrence ι κ)))
    (moves : List (Move ι κ)) : (p.run s.observed moves).calling = p.calling.run s.traced moves := by
  obtain ⟨inside, same⟩ := alike_run s.keeps_observed p moves rfl
  rw [calling, same]
  exact inside.symm

/-- A move makes the calls that it has to make, also where more is observed than calls. -/
theorem callsOf_apply (s : Surroundings ι κ σ) (p : Pipeline ι κ (σ × List (Occurrence ι κ)))
    (move : Move ι κ) :
    callsOf (move.apply s.observed p).outside.2 = callsOf p.outside.2 ++ move.calls p := by
  have traced := calls_apply s p.calling move
  rw [← calling_apply] at traced
  have same : move.calls p.calling = move.calls p := by cases move <;> rfl
  rw [← same]
  exact traced

end Pipeline

open Pipeline

/-- After every run of a pipeline, from its creation, whatever becomes of any call to a sink or to a
subscriber:

* to observe what occurs disturbs nothing;
* the calls that the sinks have received, each with its record, in order, are the same as in any other
  surroundings, so for each sink the same as if all other sinks always succeeded;
* the sinks registered are those added and not removed since, each as often as it was added, in order;
* the next move makes the calls that it has to make, and no others. For each record that the worker
  takes in it, the calls made to consume and those still to be made grow by one for each registration
  at that moment, in order; a flush calls each registration once, and so does a shutdown of a running
  pipeline when the worker leaves, and once more if it is asked to;
* every call that failed or crashed is followed at once by its own report, and nothing else is ever
  reported.

Proof: each call keeps two pipelines alike whose sinks have received the same calls, and keeps what
occurred answered; so does every run. -/
theorem faults_isolated {ι κ σ : Type} [DecidableEq ι] (s : Surroundings ι κ σ) (capacity : Nat)
    (outside : σ) (moves : List (Move ι κ)) :
    let p := (create capacity (outside, [])).run s.observed moves
    p.untraced = (create capacity outside).run s moves ∧
    (∀ (τ : Type) (t : Surroundings ι κ τ) (v : τ),
      callsOf p.outside.2 =
        callsOf ((create capacity (v, [])).run t.observed moves).outside.2) ∧
    p.sinks = registered moves ∧
    (∀ move : Move ι κ,
      let q := move.apply s.observed p
      callsOf q.outside.2 = callsOf p.outside.2 ++ move.calls p ∧
      consumed (move.calls p) ++ q.worker.outstanding = p.worker.outstanding ++
        (move.taking p).flatMap fun r => (registered moves).map (·, r)) ∧
    Answered p.outside.2 := by
  intro p
  have sinks : p.sinks = registered moves := sinks_run s.observed capacity (outside, []) moves
  have traced : p.calling = (create capacity (outside, [])).run s.traced moves :=
    calling_run s (create capacity (outside, [])) moves
  refine ⟨?_, fun τ t v => ?_, sinks, fun move => ⟨p.callsOf_apply s move, ?_⟩, ?_⟩
  · calc p.untraced
        = p.calling.untraced := rfl
      _ = ((create capacity (outside, [])).run s.traced moves).untraced := by rw [traced]
      _ = (create capacity outside).run s moves := untraced_run s _ moves
  · have alike := alike_run (s.keeps_calls t) (create capacity (outside, [])) moves
      (show callsOf [] = callsOf (v, ([] : List (Occurrence ι κ))).2 from rfl)
    exact alike.outside
  · rw [← sinks]
    exact outstanding_apply s.observed p move
  · have start : Answered ([] : List (Occurrence ι κ)) := rfl
    exact (alike_run (v := (outside, [])) s.keeps_answered (create capacity (outside, [])) moves
      start).outside

/-- Sink 1 crashes at every call. A worker that is started calls it with a record and then sink 0, as it
would if no sink crashed, and reports the crash; so does a flush. -/
theorem crash_beside_delivery :
    let record := Record.capture ⟨⟨0⟩, 1⟩ .info none "a"
    let moves : List (Move Nat Nat) := [.addSink 1, .addSink 0, .submit ⟨⟨0⟩, 1⟩ .info none "a",
      .start, .work, .work, .work, .flush]
    let p := (create 2 ([], [])).run (Surroundings.partlyFaulty (· == 1)).observed moves
    let q := (create 2 ([], [])).run (Surroundings.partlyFaulty fun _ => false).observed moves
    callsOf p.outside.2 = [.consume 1 record, .consume 0 record, .flush 1, .flush 0] ∧
      callsOf p.outside.2 = callsOf q.outside.2 ∧
      p.outside.1 = [.consumeCrashed, .flushCrashed] ∧ q.outside.1 = [] ∧ Answered p.outside.2 := by
  intro record moves p q
  obtain ⟨-, same, -, -, answered⟩ :=
    faults_isolated (Surroundings.partlyFaulty (· == 1)) 2 [] moves
  have run : callsOf p.outside.2 = [.consume 1 record, .consume 0 record, .flush 1, .flush 0] ∧
      p.outside.1 = [.consumeCrashed, .flushCrashed] ∧ q.outside.1 = [] := by
    decide +kernel
  obtain ⟨calls, crashes, quiet⟩ := run
  exact ⟨calls, same _ _ [], crashes, quiet, answered⟩

end KeyValueService
