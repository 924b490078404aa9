import KeyValueService.Pipeline.Basic

/-!
# Runs of a pipeline

Producers, the worker and whoever starts or stops it take uninterrupted steps on
one pipeline, in any order. A producer first shows its record to the subscribers
and later adds it to the backlog, so that steps of others may fall in between;
submitting is both at once. The worker takes a record in one step and hands it to
one sink in each of the following ones. A shutdown that is overtaken by producers
is a run with steps of the worker among theirs and the shutdown where the worker
leaves: by `drain_eq_workSteps` the drain in it is nothing but steps of the worker.

What sinks and subscribers do reaches a pipeline nowhere else than in the state of
its surroundings. So pipelines in different surroundings stay alike in all else, and
a relation between the surroundings that every call keeps is kept by every run
(`alike_run`).

What a move changes besides the records that wait, the worker and the surroundings is
said once (`apply_frame`).

Surroundings can be made to keep a trace of the calls that sinks receive. Tracing
disturbs nothing: with the trace left out, every run is the run without it. The
calls of a move are known beforehand (`calls_apply`).
-/

namespace KeyValueService

/-- A call that a sink receives. -/
inductive Call (ι : Type)
  | consume (sink : ι) (r : Record)
  | flush (sink : ι)
  deriving DecidableEq, Repr

/-- The calls that a worker still has to make for the record that it delivers. -/
def Worker.outstanding {ι : Type} : Worker ι → List (ι × Record)
  | .delivering r remaining => remaining.map (·, r)
  | _ => []

namespace Pipeline

variable {ι κ σ : Type}

/-- The pipeline with something else in place of the state of its surroundings. -/
def withOutside {τ : Type} (p : Pipeline ι κ σ) (outside : τ) : Pipeline ι κ τ :=
  { p with outside }

section Moves

variable [DecidableEq ι]

/-- An uninterrupted step of one of those who share a pipeline. -/
inductive Move (ι κ : Type)
  | announce (r : Record)
  | enqueue (r : Record)
  | submit (origin : Origin) (level : Level) (session : Option String) (message : String)
  | work
  | start
  | shutdown (flushing : Bool)
  | flush
  | setThreshold (level : Level)
  | addSink (sink : ι)
  | removeSink (sink : ι)
  | subscribe (subscriber : κ)
  | unsubscribe (number : Nat)
  | clearSession (session : String)
  | clear

/-- The pipeline after a move. -/
def Move.apply (s : Surroundings ι κ σ) (p : Pipeline ι κ σ) : Move ι κ → Pipeline ι κ σ
  | .announce r => p.announce s r
  | .enqueue r => p.enqueue r
  | .submit origin level session message => p.submit s origin level session message
  | .work => p.work s
  | .start => p.start
  | .shutdown flushing => p.shutdown s flushing
  | .flush => p.flush s
  | .setThreshold level => p.setThreshold level
  | .addSink sink => p.addSink sink
  | .removeSink sink => (p.removeSink sink).1
  | .subscribe subscriber => (p.subscribe subscriber).1
  | .unsubscribe number => (p.unsubscribe number).1
  | .clearSession session => (p.clearSession s session).1
  | .clear => p.clear s

/-- Whether a move is one of a producer. -/
def Move.submits : Move ι κ → Bool
  | .announce _ => true
  | .enqueue _ => true
  | .submit _ _ _ _ => true
  | _ => false

/-- The pipeline after moves, one after the other. -/
def run (s : Surroundings ι κ σ) (p : Pipeline ι κ σ) (moves : List (Move ι κ)) : Pipeline ι κ σ :=
  moves.foldl (Move.apply s) p

theorem run_append (s : Surroundings ι κ σ) (p : Pipeline ι κ σ) (first rest : List (Move ι κ)) :
    p.run s (first ++ rest) = (p.run s first).run s rest :=
  List.foldl_append

/-- Submitting a record that is let in is announcing it and adding it, with nothing in between. -/
theorem run_announce_enqueue (s : Surroundings ι κ σ) (p : Pipeline ι κ σ) (origin : Origin)
    (level : Level) (session : Option String) (message : String) (accepted : p.accepts level) :
    p.run s [.announce (.capture origin level session message),
        .enqueue (.capture origin level session message)] =
      p.submit s origin level session message := by
  simp [run, Move.apply, submit, accepted]

end Moves

end Pipeline

namespace Surroundings

variable {ι κ σ τ : Type}

/-- The history kept by the first of the sinks that keeps one is changed. -/
def changeHistory (s : Surroundings ι κ σ) (change : History → History) (sinks : List ι) (w : σ) : σ :=
  match sinks.findSome? fun sink => (s.history? sink w).map (sink, ·) with
  | none => w
  | some (sink, h) => s.setHistory sink (change h) w

/-- Each call to a sink keeps a relation between the states of two surroundings, whatever its outcome
is in the one and in the other, and so does each change of a history. -/
structure KeepsSinks (s : Surroundings ι κ σ) (related : σ → τ → Prop) (t : Surroundings ι κ τ) :
    Prop where
  consume : ∀ (sink : ι) (r : Record) {w : σ} {v : τ}, related w v →
    related (s.reportConsume (s.consume sink r w)) (t.reportConsume (t.consume sink r v))
  flush : ∀ (sink : ι) {w : σ} {v : τ}, related w v →
    related (s.reportFlush (s.flush sink w)) (t.reportFlush (t.flush sink v))
  changeHistory : ∀ (change : History → History) (sinks : List ι) {w : σ} {v : τ}, related w v →
    related (s.changeHistory change sinks w) (t.changeHistory change sinks v)

/-- Calls to subscribers keep the relation as well. -/
structure Keeps (s : Surroundings ι κ σ) (related : σ → τ → Prop) (t : Surroundings ι κ τ) : Prop
    extends s.KeepsSinks related t where
  notify : ∀ (subscriber : κ) (r : Record) (waiting : Nat) {w : σ} {v : τ}, related w v →
    related (s.notifyAll r waiting [subscriber] w) (t.notifyAll r waiting [subscriber] v)

variable {related : σ → τ → Prop} {s : Surroundings ι κ σ} {t : Surroundings ι κ τ}

theorem KeepsSinks.deliver (keeps : s.KeepsSinks related t) (r : Record) (sinks : List ι) {w : σ}
    {v : τ} (start : related w v) : related (s.deliver r sinks w) (t.deliver r sinks v) := by
  induction sinks generalizing w v with
  | nil => exact start
  | cons sink rest inductionHypothesis => exact inductionHypothesis (keeps.consume sink r start)

theorem KeepsSinks.deliverAll (keeps : s.KeepsSinks related t) (records : List Record)
    (sinks : List ι) {w : σ} {v : τ} (start : related w v) :
    related (records.foldl (fun w r => s.deliver r sinks w) w)
      (records.foldl (fun v r => t.deliver r sinks v) v) := by
  induction records generalizing w v with
  | nil => exact start
  | cons r rest inductionHypothesis => exact inductionHypothesis (keeps.deliver r sinks start)

theorem KeepsSinks.flushAll (keeps : s.KeepsSinks related t) (sinks : List ι) {w : σ} {v : τ}
    (start : related w v) : related (s.flushAll sinks w) (t.flushAll sinks v) := by
  induction sinks generalizing w v with
  | nil => exact start
  | cons sink rest inductionHypothesis => exact inductionHypothesis (keeps.flush sink start)

theorem Keeps.notifyAll (keeps : s.Keeps related t) (r : Record) (waiting : Nat)
    (subscribers : List κ) {w : σ} {v : τ} (start : related w v) :
    related (s.notifyAll r waiting subscribers w) (t.notifyAll r waiting subscribers v) := by
  induction subscribers generalizing w v with
  | nil => exact start
  | cons subscriber rest inductionHypothesis =>
    exact inductionHypothesis (keeps.notify subscriber r waiting start)

end Surroundings

namespace Pipeline

section Alike

variable {ι κ σ τ : Type} {related : σ → τ → Prop} {s : Surroundings ι κ σ} {t : Surroundings ι κ τ}

/-- Two pipelines are alike up to the states of their surroundings, and those are related. -/
structure Alike (related : σ → τ → Prop) (p : Pipeline ι κ σ) (q : Pipeline ι κ τ) : Prop where
  inside : q = p.withOutside q.outside
  outside : related p.outside q.outside

/-- Clearing changes the surroundings and nothing else. -/
theorem clear_eq (p : Pipeline ι κ σ) :
    p.clear s = p.withOutside (s.changeHistory History.clear p.sinks p.outside) := by
  rw [clear, Surroundings.changeHistory, history?]
  cases p.sinks.findSome? fun sink => (s.history? sink p.outside).map (sink, ·) <;> rfl

theorem clearSession_eq (p : Pipeline ι κ σ) (session : String) :
    (p.clearSession s session).1 =
      p.withOutside (s.changeHistory (fun h => (h.clearSession session).1) p.sinks p.outside) := by
  rw [clearSession, Surroundings.changeHistory, history?]
  cases p.sinks.findSome? fun sink => (s.history? sink p.outside).map (sink, ·) <;> rfl

variable {v : τ}

theorem alike_drain (keeps : s.KeepsSinks related t) (p : Pipeline ι κ σ)
    (start : related p.outside v) : Alike related (p.drain s) ((p.withOutside v).drain t) := by
  obtain ⟨backlog, threshold, sinks, subscribers, next, worker, w⟩ := p
  cases worker with
  | stopped => exact ⟨rfl, start⟩
  | waiting => exact ⟨rfl, keeps.deliverAll _ _ start⟩
  | delivering r remaining => exact ⟨rfl, keeps.deliverAll _ _ (keeps.deliver r remaining start)⟩

theorem alike_flush (keeps : s.KeepsSinks related t) (p : Pipeline ι κ σ)
    (start : related p.outside v) : Alike related (p.flush s) ((p.withOutside v).flush t) :=
  ⟨rfl, keeps.flushAll p.sinks start⟩

theorem alike_shutdown (keeps : s.KeepsSinks related t) (p : Pipeline ι κ σ) (flushing : Bool)
    (start : related p.outside v) :
    Alike related (p.shutdown s flushing) ((p.withOutside v).shutdown t flushing) := by
  by_cases running : p.isRunning
  · have running' : (p.withOutside v).isRunning := running
    obtain ⟨drained, afterDrain⟩ := alike_drain keeps p start
    obtain ⟨flushed, afterFlush⟩ := alike_flush keeps (p.drain s) afterDrain
    rw [← drained] at flushed afterFlush
    rw [shutdown, shutdown, if_pos running, if_pos running', flushed]
    cases flushing with
    | false => exact ⟨rfl, afterFlush⟩
    | true => exact alike_flush keeps { (p.drain s).flush s with worker := .stopped } afterFlush
  · have stopped : ¬ (p.withOutside v).isRunning := running
    rw [shutdown, shutdown, if_neg running, if_neg stopped]
    exact ⟨rfl, start⟩

theorem alike_work (keeps : s.KeepsSinks related t) (p : Pipeline ι κ σ)
    (start : related p.outside v) : Alike related (p.work s) ((p.withOutside v).work t) := by
  obtain ⟨backlog, threshold, sinks, subscribers, next, worker, w⟩ := p
  cases worker with
  | stopped => exact ⟨rfl, start⟩
  | waiting =>
    simp only [work, withOutside]
    cases backlog.pop? with
    | none => exact ⟨rfl, start⟩
    | some taken => exact ⟨rfl, start⟩
  | delivering r remaining =>
    cases remaining with
    | nil => exact ⟨rfl, start⟩
    | cons sink rest => exact ⟨rfl, keeps.consume sink r start⟩

variable [DecidableEq ι]

/-- A move that is not of a producer keeps pipelines alike: it reaches the surroundings only by calls
to sinks and by changes of a history, and nothing that these answer changes what it does otherwise. -/
theorem alike_aside (keeps : s.KeepsSinks related t) (p : Pipeline ι κ σ) (move : Move ι κ)
    (aside : move.submits = false) (start : related p.outside v) :
    Alike related (move.apply s p) (move.apply t (p.withOutside v)) := by
  cases move with
  | announce | enqueue | submit => cases aside
  | work => exact alike_work keeps p start
  | start =>
    obtain ⟨backlog, threshold, sinks, subscribers, next, worker, w⟩ := p
    cases worker <;> exact ⟨rfl, start⟩
  | shutdown flushing => exact alike_shutdown keeps p flushing start
  | flush => exact alike_flush keeps p start
  | clearSession session =>
    have changed := keeps.changeHistory (fun h => (h.clearSession session).1) p.sinks start
    simp only [Move.apply, clearSession_eq]
    exact ⟨rfl, changed⟩
  | clear =>
    have changed := keeps.changeHistory History.clear p.sinks start
    simp only [Move.apply, clear_eq]
    exact ⟨rfl, changed⟩
  | setThreshold | addSink | removeSink | subscribe | unsubscribe => exact ⟨rfl, start⟩

/-- Every move keeps pipelines alike. A move of a producer calls subscribers only. -/
theorem alike_apply (keeps : s.Keeps related t) (p : Pipeline ι κ σ) (move : Move ι κ)
    (start : related p.outside v) :
    Alike related (move.apply s p) (move.apply t (p.withOutside v)) := by
  cases move with
  | announce r => exact ⟨rfl, keeps.notifyAll r _ _ start⟩
  | enqueue r => exact ⟨rfl, start⟩
  | submit origin level session message =>
    by_cases accepted : p.accepts level
    · have accepted' : (p.withOutside v).accepts level := accepted
      simp only [Move.apply, submit, if_pos accepted, if_pos accepted']
      exact ⟨rfl, keeps.notifyAll _ _ _ start⟩
    · have refused : ¬ (p.withOutside v).accepts level := accepted
      simp only [Move.apply, submit, if_neg accepted, if_neg refused]
      exact ⟨rfl, start⟩
  | work | start | shutdown | flush | setThreshold | addSink | removeSink | subscribe | unsubscribe
    | clearSession | clear => exact alike_aside keeps.toKeepsSinks p _ rfl start

/-- Pipelines stay alike in every run. -/
theorem alike_run (keeps : s.Keeps related t) (p : Pipeline ι κ σ) (moves : List (Move ι κ))
    (start : related p.outside v) :
    Alike related (p.run s moves) ((p.withOutside v).run t moves) := by
  induction moves generalizing p v with
  | nil => exact ⟨rfl, start⟩
  | cons move rest inductionHypothesis =>
    obtain ⟨inside, outside⟩ := alike_apply keeps p move start
    change Alike related ((move.apply s p).run s rest) ((move.apply t (p.withOutside v)).run t rest)
    rw [inside]
    exact inductionHypothesis (move.apply s p) outside

end Alike

section Frame

variable {ι κ σ : Type} [DecidableEq ι]

/-- What a move changes besides the records that wait, the worker and the surroundings: the threshold,
and who is registered. -/
def Move.arrange (p : Pipeline ι κ σ) : Move ι κ → Pipeline ι κ σ
  | .setThreshold level => p.setThreshold level
  | .addSink sink => p.addSink sink
  | .removeSink sink => (p.removeSink sink).1
  | .subscribe subscriber => (p.subscribe subscriber).1
  | .unsubscribe number => (p.unsubscribe number).1
  | _ => p

theorem apply_frame (s : Surroundings ι κ σ) (p : Pipeline ι κ σ) (move : Move ι κ) :
    ∃ backlog worker outside,
      move.apply s p = { move.arrange p with backlog, worker, outside } := by
  cases move with
  | submit origin level session message =>
    by_cases accepted : p.accepts level
    · exact ⟨_, _, _, if_pos accepted⟩
    · exact ⟨_, _, _, if_neg accepted⟩
  | work =>
    cases state : p.worker with
    | stopped => exact ⟨_, _, _, by simp only [Move.apply, work, state]; rfl⟩
    | waiting =>
      cases popped : p.backlog.pop? with
      | none => exact ⟨_, _, _, by simp only [Move.apply, work, state, popped]; rfl⟩
      | some taken => exact ⟨_, _, _, by simp only [Move.apply, work, state, popped]; rfl⟩
    | delivering r remaining =>
      cases remaining with
      | nil => exact ⟨_, _, _, by simp only [Move.apply, work, state]; rfl⟩
      | cons sink rest => exact ⟨_, _, _, by simp only [Move.apply, work, state]; rfl⟩
  | start =>
    cases state : p.worker with
    | stopped | waiting | delivering =>
      exact ⟨_, _, _, by simp only [Move.apply, start, state]; rfl⟩
  | shutdown flushing =>
    have drained : ∃ backlog worker outside, p.drain s = { p with backlog, worker, outside } := by
      cases state : p.worker with
      | stopped | waiting | delivering => exact ⟨_, _, _, by simp only [drain, state]; rfl⟩
    obtain ⟨backlog, worker, outside, drained⟩ := drained
    by_cases running : p.isRunning
    · simp only [Move.apply, shutdown, if_pos running, drained]
      cases flushing <;> exact ⟨_, _, _, rfl⟩
    · exact ⟨_, _, _, if_neg running⟩
  | clearSession session => exact ⟨_, _, _, p.clearSession_eq session⟩
  | clear => exact ⟨_, _, _, p.clear_eq⟩
  | announce | enqueue | flush | setThreshold | addSink | removeSink | subscribe | unsubscribe =>
    exact ⟨_, _, _, rfl⟩

end Frame

end Pipeline

namespace Surroundings

variable {ι κ σ : Type}

/-- The surroundings with a trace of the calls to sinks beside their state. -/
def traced (s : Surroundings ι κ σ) : Surroundings ι κ (σ × List (Call ι)) where
  consume sink r w := (((s.consume sink r w.1).1, w.2 ++ [.consume sink r]), (s.consume sink r w.1).2)
  flush sink w := (((s.flush sink w.1).1, w.2 ++ [.flush sink]), (s.flush sink w.1).2)
  notify subscriber r waiting w :=
    (((s.notify subscriber r waiting w.1).1, w.2), (s.notify subscriber r waiting w.1).2)
  report r w := (s.report r w.1, w.2)
  history? sink w := s.history? sink w.1
  setHistory sink h w := (s.setHistory sink h w.1, w.2)

/-- Surroundings in which sinks and subscribers have numbers. Those that are faulty crash at every call, the
others never; all that is kept are the reports. -/
def partlyFaulty (faulty : Nat → Bool) : Surroundings Nat Nat (List Report) where
  consume sink _ w := (w, if faulty sink then .crashed else .completed)
  flush sink w := (w, if faulty sink then .crashed else .completed)
  notify subscriber _ _ w := (w, !faulty subscriber)
  report r w := w ++ [r]
  history? _ _ := none
  setHistory _ _ w := w

/-- A report about a call is no call itself. -/
theorem traced_reportConsume (s : Surroundings ι κ σ) (w : σ × List (Call ι)) (outcome : Outcome) :
    s.traced.reportConsume (w, outcome) = (s.reportConsume (w.1, outcome), w.2) := by
  cases outcome <;> rfl

theorem traced_reportFlush (s : Surroundings ι κ σ) (w : σ × List (Call ι)) (outcome : Outcome) :
    s.traced.reportFlush (w, outcome) = (s.reportFlush (w.1, outcome), w.2) := by
  cases outcome <;> rfl

/-- A delivery calls each of its sinks once, in order. -/
theorem traced_deliver (s : Surroundings ι κ σ) (r : Record) (sinks : List ι)
    (w : σ × List (Call ι)) :
    s.traced.deliver r sinks w = (s.deliver r sinks w.1, w.2 ++ sinks.map (Call.consume · r)) := by
  induction sinks generalizing w with
  | nil => simp [deliver]
  | cons sink rest inductionHypothesis =>
    have first : s.traced.reportConsume (s.traced.consume sink r w) =
        (s.reportConsume (s.consume sink r w.1), w.2 ++ [.consume sink r]) :=
      s.traced_reportConsume (_, _) _
    change s.traced.deliver r rest (s.traced.reportConsume (s.traced.consume sink r w)) = _
    rw [first, inductionHypothesis]
    simp [deliver]

/-- Several deliveries call the sinks for one record after the other. -/
theorem traced_deliver_foldl (s : Surroundings ι κ σ) (records : List Record) (sinks : List ι)
    (w : σ × List (Call ι)) :
    records.foldl (fun w r => s.traced.deliver r sinks w) w =
      (records.foldl (fun w r => s.deliver r sinks w) w.1,
        w.2 ++ records.flatMap fun r => sinks.map (Call.consume · r)) := by
  induction records generalizing w with
  | nil => simp
  | cons r rest inductionHypothesis =>
    rw [List.foldl_cons, traced_deliver, inductionHypothesis, List.foldl_cons, List.flatMap_cons,
      List.append_assoc]

/-- Flushing calls each of the sinks once, in order. -/
theorem traced_flushAll (s : Surroundings ι κ σ) (sinks : List ι) (w : σ × List (Call ι)) :
    s.traced.flushAll sinks w = (s.flushAll sinks w.1, w.2 ++ sinks.map Call.flush) := by
  induction sinks generalizing w with
  | nil => simp [flushAll]
  | cons sink rest inductionHypothesis =>
    have first : s.traced.reportFlush (s.traced.flush sink w) =
        (s.reportFlush (s.flush sink w.1), w.2 ++ [.flush sink]) :=
      s.traced_reportFlush (_, _) _
    change s.traced.flushAll rest (s.traced.reportFlush (s.traced.flush sink w)) = _
    rw [first, inductionHypothesis]
    simp [flushAll]

/-- Subscribers are no sinks. -/
theorem traced_notifyAll (s : Surroundings ι κ σ) (r : Record) (waiting : Nat)
    (subscribers : List κ) (w : σ × List (Call ι)) :
    s.traced.notifyAll r waiting subscribers w = (s.notifyAll r waiting subscribers w.1, w.2) := by
  induction subscribers generalizing w with
  | nil => rfl
  | cons subscriber rest inductionHypothesis =>
    have first : s.traced.notifyAll r waiting [subscriber] w =
        (s.notifyAll r waiting [subscriber] w.1, w.2) := by
      simp only [notifyAll, List.foldl_cons, List.foldl_nil, traced]
      cases called : s.notify subscriber r waiting w.1 with
      | mk inner returned => cases returned <;> rfl
    change s.traced.notifyAll r waiting rest (s.traced.notifyAll r waiting [subscriber] w) = _
    rw [first, inductionHypothesis]
    rfl

/-- Traced surroundings are the surroundings with a trace beside their state. -/
theorem keeps_traced (s : Surroundings ι κ σ) : s.traced.Keeps (fun w v => w.1 = v) s where
  consume sink r w v same := by
    subst same
    exact congrArg Prod.fst (s.traced_reportConsume (_, _) _)
  flush sink w v same := by
    subst same
    exact congrArg Prod.fst (s.traced_reportFlush (_, _) _)
  notify subscriber r waiting w v same := by
    subst same
    exact congrArg Prod.fst (s.traced_notifyAll r waiting [subscriber] w)
  changeHistory change sinks w v same := by
    subst same
    simp only [changeHistory, traced]
    cases sinks.findSome? fun sink => (s.history? sink w.1).map (sink, ·) <;> rfl

end Surroundings

namespace Pipeline

variable {ι κ σ : Type}

/-- The pipeline without the trace beside the state of its surroundings. -/
def untraced {τ : Type} (p : Pipeline ι κ (σ × τ)) : Pipeline ι κ σ :=
  p.withOutside p.outside.1

/-- The calls that a move makes to sinks. The worker makes the first of those it still has to make. A
shutdown makes all of them, hands over what waits to the sinks registered, and flushes these. -/
def Move.calls (p : Pipeline ι κ σ) : Move ι κ → List (Call ι)
  | .work => (p.worker.outstanding.take 1).map fun due => .consume due.1 due.2
  | .flush => p.sinks.map .flush
  | .shutdown flushing =>
    if p.isRunning then
      (p.worker.outstanding ++ p.backlog.toList.flatMap fun r => p.sinks.map (·, r)).map
          (fun due => .consume due.1 due.2) ++
        (p.sinks.map .flush ++ if flushing then p.sinks.map .flush else [])
    else []
  | _ => []

/-- What a drain of a traced pipeline calls for: the sinks registered get all records that wait, after
those that still had to get the record being delivered have got it. -/
theorem calls_drain (s : Surroundings ι κ σ) (p : Pipeline ι κ (σ × List (Call ι)))
    (running : p.isRunning) :
    (p.drain s.traced).outside.2 = p.outside.2 ++
      (p.worker.outstanding ++ p.backlog.toList.flatMap fun r => p.sinks.map (·, r)).map
        fun due => .consume due.1 due.2 := by
  cases state : p.worker with
  | stopped => simp [isRunning, state] at running
  | waiting =>
    simp [drain, drain.all, state, Surroundings.traced_deliver_foldl, Worker.outstanding,
      List.map_flatMap, Function.comp_def]
  | delivering r remaining =>
    simp only [drain, drain.all, state]
    rw [Surroundings.traced_deliver_foldl, Surroundings.traced_deliver]
    simp [Worker.outstanding, List.map_flatMap, Function.comp_def]

theorem sinks_drain (s : Surroundings ι κ σ) (p : Pipeline ι κ σ) : (p.drain s).sinks = p.sinks := by
  cases state : p.worker <;> simp [drain, state]

theorem calls_shutdown (s : Surroundings ι κ σ) (p : Pipeline ι κ (σ × List (Call ι)))
    (flushing : Bool) :
    (p.shutdown s.traced flushing).outside.2 =
      p.outside.2 ++ Move.calls p (.shutdown flushing : Move ι κ) := by
  by_cases running : p.isRunning
  · have drained := p.calls_drain s running
    simp only [shutdown, if_pos running, Move.calls]
    cases flushing <;>
      simp [flush, sinks_drain, Surroundings.traced_flushAll, drained]
  · simp [shutdown, running, Move.calls]

theorem calls_work (s : Surroundings ι κ σ) (p : Pipeline ι κ (σ × List (Call ι))) :
    (p.work s.traced).outside.2 = p.outside.2 ++ Move.calls p (.work : Move ι κ) := by
  cases state : p.worker with
  | stopped => simp [work, state, Move.calls, Worker.outstanding]
  | waiting => cases popped : p.backlog.pop? <;> simp [work, state, popped, Move.calls, Worker.outstanding]
  | delivering r remaining =>
    cases remaining with
    | nil => simp [work, state, Move.calls, Worker.outstanding]
    | cons sink rest =>
      have called : s.traced.reportConsume (s.traced.consume sink r p.outside) =
          (s.reportConsume (s.consume sink r p.outside.1), p.outside.2 ++ [.consume sink r]) :=
        s.traced_reportConsume (_, _) _
      simp [work, state, Move.calls, called, Worker.outstanding]

variable [DecidableEq ι]

/-- The calls that sinks receive in a move depend on the pipeline alone, not on its surroundings. -/
theorem calls_apply (s : Surroundings ι κ σ) (p : Pipeline ι κ (σ × List (Call ι)))
    (move : Move ι κ) : (move.apply s.traced p).outside.2 = p.outside.2 ++ move.calls p := by
  cases move with
  | work => exact p.calls_work s
  | shutdown flushing => exact p.calls_shutdown s flushing
  | flush => simp [Move.apply, flush, Move.calls, Surroundings.traced_flushAll]
  | announce r => simp [Move.apply, announce, Move.calls, Surroundings.traced_notifyAll]
  | submit origin level session message =>
    by_cases accepted : p.accepts level
    · simp [Move.apply, submit, accepted, announce, enqueue, Move.calls,
        Surroundings.traced_notifyAll]
    · simp [Move.apply, submit, accepted, Move.calls]
  | start => cases state : p.worker <;> simp [Move.apply, start, state, Move.calls]
  | clearSession session =>
    simp only [Move.apply, clearSession, Move.calls, List.append_nil]
    cases p.history? s.traced <;> rfl
  | clear =>
    simp only [Move.apply, clear, Move.calls, List.append_nil]
    cases p.history? s.traced <;> rfl
  | enqueue | setThreshold | addSink | removeSink | subscribe | unsubscribe =>
    simp [Move.apply, enqueue, setThreshold, addSink, removeSink, subscribe, unsubscribe, Move.calls]

/-- Tracing calls disturbs no move. -/
theorem untraced_apply (s : Surroundings ι κ σ) (p : Pipeline ι κ (σ × List (Call ι)))
    (move : Move ι κ) : (move.apply s.traced p).untraced = move.apply s p.untraced := by
  obtain ⟨inside, same⟩ := alike_apply s.keeps_traced p move rfl
  rw [untraced, same]
  exact inside.symm

/-- Tracing calls disturbs no run. -/
theorem untraced_run (s : Surroundings ι κ σ) (p : Pipeline ι κ (σ × List (Call ι)))
    (moves : List (Move ι κ)) : (p.run s.traced moves).untraced = p.untraced.run s moves := by
  obtain ⟨inside, same⟩ := alike_run s.keeps_traced p moves rfl
  rw [untraced, same]
  exact inside.symm

end Pipeline

end KeyValueService
