import KeyValueService.Logger.Outlets
import KeyValueService.Proofs.HistoryContents
import KeyValueService.Proofs.WorkerThread

/-!
# What queries show

A pipeline with a history among its sinks is used in batches: while it is stopped, the threshold is
changed and events are logged; then it is started and shut down again. On the way to the history
records are lost at three places, to the threshold, to the backlog and to the slots of the history.
Main statement: `queries_exact`, by which queries show the last of those records that were the last
let in in their batch.

A sink that is registered twice gets a record twice, and so does the history. What the other sinks do,
and how their calls end, plays no part.
-/

namespace KeyValueService

namespace History

/-- The history after records were consumed, one after the other. -/
def hearing (h : History) (records : List Record) : History :=
  h.run (records.map .consume)

theorem hearing_append (h : History) (first rest : List Record) :
    h.hearing (first ++ rest) = (h.hearing first).hearing rest := by
  rw [hearing, List.map_append, run, List.foldl_append]
  rfl

theorem recordedOf_map_consume (session : String) (records : List Record) :
    recordedOf session (records.map .consume) = records.filter (·.session = some session) := by
  induction records using List.reverseRecOn with
  | nil => rfl
  | append_singleton records r inductionHypothesis =>
    rw [List.map_append, List.map_singleton, recordedOf_append, inductionHypothesis,
      List.filter_append]
    by_cases own : r.session = some session <;> simp [Act.forgets, Act.recordOf?, own]

/-- What is kept of everything does not depend on whether sessions have their slots. -/
theorem retains_hearing (capacity sessionCapacity : Nat) (records : List Record) :
    ((empty capacity sessionCapacity).hearing records).everything.Retains records ∧
    ((empty capacity sessionCapacity).hearing records).capacity = capacity := by
  induction records using List.reverseRecOn with
  | nil => exact ⟨Ring.retains_empty capacity, rfl⟩
  | append_singleton records r inductionHypothesis =>
    obtain ⟨retained, places⟩ := inductionHypothesis
    rw [hearing_append]
    generalize (empty capacity sessionCapacity).hearing records = h at retained places
    have heard : (h.hearing [r]).everything = h.everything.push r := h.everything_consume r
    refine ⟨?_, ?_⟩
    · rw [heard]
      exact retained.push r
    · rw [History.capacity, heard, Ring.capacity_push]
      exact places

theorem latest_hearing (capacity sessionCapacity : Nat) (records : List Record) (n : Nat) :
    ((empty capacity sessionCapacity).hearing records).latest n = records.rtake (min n capacity) := by
  obtain ⟨retained, places⟩ := retains_hearing capacity sessionCapacity records
  have shown := retained.latest n
  rw [← History.capacity, places] at shown
  exact shown

/-- Where the slots for a session cannot be set aside, no session is ever known. -/
theorem sessions_hearing_of_no_room {sessionCapacity : Nat} (noRoom : hasRoom sessionCapacity = false)
    (capacity : Nat) (records : List Record) :
    ((empty capacity sessionCapacity).hearing records).sessions = .empty ∧
    ((empty capacity sessionCapacity).hearing records).sessionCapacity = sessionCapacity := by
  induction records using List.reverseRecOn with
  | nil => exact ⟨rfl, rfl⟩
  | append_singleton records r inductionHypothesis =>
    obtain ⟨unknown, places⟩ := inductionHypothesis
    rw [hearing_append]
    generalize (empty capacity sessionCapacity).hearing records = h at unknown places
    change (h.consume r).1.sessions = .empty ∧ (h.consume r).1.sessionCapacity = sessionCapacity
    cases session : r.session with
    | none =>
      rw [consume_of_canAdd (by simp [canAdd, session])]
      exact ⟨by simp [add, session, unknown], places⟩
    | some name =>
      have full : h.canAdd r = false := by
        simp [canAdd, session, unknown, places, noRoom, Table.contains, Table.find?_empty]
      rw [consume, if_neg (by simp [full])]
      exact ⟨unknown, places⟩

/-- What is kept of a session once records were consumed. -/
theorem toList_ofSession_hearing (capacity sessionCapacity : Nat) (records : List Record)
    (session : String) :
    (((empty capacity sessionCapacity).hearing records).ofSession session).toList =
      if hasRoom sessionCapacity then
        (records.filter (·.session = some session)).rtake sessionCapacity
      else [] := by
  cases room : hasRoom sessionCapacity with
  | true =>
    have reflects := reflects_run capacity room (records.map .consume)
    have retained := reflects.ofSession session
    rw [Ring.Retains, reflects.slots, recordedOf_map_consume] at retained
    exact retained
  | false =>
    have unknown := (sessions_hearing_of_no_room room capacity records).1
    rw [ofSession, unknown, Table.find?_empty]
    rfl

theorem latestOf_hearing (capacity sessionCapacity : Nat) (records : List Record) (session : String)
    (n : Nat) :
    ((empty capacity sessionCapacity).hearing records).latestOf session n =
      if hasRoom sessionCapacity then
        (records.filter (·.session = some session)).rtake (min n sessionCapacity)
      else [] := by
  rw [latestOf, Ring.latest_eq_rtake, toList_ofSession_hearing]
  split
  · exact rtake_rtake _ _ _
  · exact List.rtake_nil n

end History

namespace Surroundings

section Outlets

variable {α κ τ : Type} (others : Surroundings α κ (Host × τ))

theorem history_flushAll (sinks : List (Outlet α)) (o : Outlets τ) :
    ((withOutlets others).flushAll sinks o).history = o.history := by
  have reported : ∀ result : Outlets τ × Outcome,
      ((withOutlets others).reportFlush result).history = result.1.history := by
    rintro ⟨o, _ | e | _⟩ <;> rfl
  have flushed : ∀ (sink : Outlet α) (o : Outlets τ),
      ((withOutlets others).flush sink o).1.history = o.history := by
    intro sink o
    cases sink with
    | history => rfl
    | other a => rfl
    | console => cases console : o.console <;> simp [withOutlets, Outlets.callConsole, console]
    | file => cases file : o.file <;> simp [withOutlets, Outlets.callFile, file]
  induction sinks generalizing o with
  | nil => rfl
  | cons sink rest inductionHypothesis =>
    rw [Surroundings.flushAll, List.foldl_cons, ← Surroundings.flushAll, inductionHypothesis,
      reported, flushed]

theorem history_notifyAll (r : Record) (waiting : Nat) (subscribers : List κ) (o : Outlets τ) :
    ((withOutlets others : Surroundings (Outlet α) κ (Outlets τ)).notifyAll r waiting subscribers
      o).history = o.history := by
  induction subscribers generalizing o with
  | nil => rfl
  | cons subscriber rest inductionHypothesis =>
    rw [Surroundings.notifyAll, List.foldl_cons, ← Surroundings.notifyAll, inductionHypothesis]
    cases told : others.notify subscriber r waiting o.shared with
    | mk shared returned => cases returned <;> simp [withOutlets, told, Outlets.withShared]

variable [DecidableEq α]

/-- Of all sinks only the history itself changes the history. -/
theorem history_consume (sink : Outlet α) (r : Record) (o : Outlets τ) :
    ((withOutlets others).reportConsume ((withOutlets others).consume sink r o)).history =
      if sink = .history then o.history.hearing [r] else o.history := by
  have reported : ∀ result : Outlets τ × Outcome,
      ((withOutlets others).reportConsume result).history = result.1.history := by
    rintro ⟨o, _ | e | _⟩ <;> rfl
  rw [reported]
  cases sink with
  | history => rfl
  | other a => rfl
  | console => cases console : o.console <;> simp [withOutlets, Outlets.callConsole, console]
  | file => cases file : o.file <;> simp [withOutlets, Outlets.callFile, file]

/-- The history consumes a record once for each time it is registered. -/
theorem history_deliver (sinks : List (Outlet α)) (r : Record) (o : Outlets τ) :
    ((withOutlets others).deliver r sinks o).history =
      o.history.hearing (List.replicate (sinks.count .history) r) := by
  induction sinks generalizing o with
  | nil => rfl
  | cons sink rest inductionHypothesis =>
    have consumed := history_consume others sink r o
    rw [Surroundings.deliver, List.foldl_cons, ← Surroundings.deliver, inductionHypothesis, consumed]
    by_cases own : sink = .history
    · rw [if_pos own, own, List.count_cons_self, List.replicate_succ]
      exact (o.history.hearing_append [r] _).symm
    · rw [if_neg own, List.count_cons_of_ne own]

theorem history_deliverAll (sinks : List (Outlet α)) (records : List Record) (o : Outlets τ) :
    (records.foldl (fun o r => (withOutlets others).deliver r sinks o) o).history =
      o.history.hearing (records.flatMap (List.replicate (sinks.count .history))) := by
  induction records generalizing o with
  | nil => rfl
  | cons r rest inductionHypothesis =>
    rw [List.foldl_cons, inductionHypothesis, history_deliver, List.flatMap_cons,
      History.hearing_append]

end Outlets

end Surroundings

namespace Pipeline

section Draining

variable {ι κ σ : Type} {s : Surroundings ι κ σ}

/-- What the worker has done already need not be done in a drain. -/
theorem drain_work (p : Pipeline ι κ σ) : (p.work s).drain s = p.drain s := by
  cases state : p.worker with
  | stopped => simp only [work, state]
  | waiting =>
    cases popped : p.backlog.pop? with
    | none => simp only [work, state, popped]
    | some taken =>
      obtain ⟨r, rest⟩ := taken
      simp [work, state, popped, drain, drain.all, Backlog.toList_of_pop? popped,
        Backlog.clear_of_pop? popped]
  | delivering r remaining =>
    cases remaining with
    | nil => simp [work, state, drain, drain.all, Surroundings.deliver]
    | cons sink rest => simp [work, state, drain, drain.all, Surroundings.deliver]

/-- A shutdown comes to the same however far the worker was. -/
theorem shutdown_work (p : Pipeline ι κ σ) (flushing : Bool) :
    (p.work s).shutdown s flushing = p.shutdown s flushing := by
  cases running : p.isRunning with
  | false =>
    have stopped := worker_of_not_isRunning running
    have still : p.work s = p := by simp only [work, stopped]
    rw [still]
  | true =>
    have still : (p.work s).isRunning = true := (Engine.isRunning_work s p).trans running
    rw [shutdown, if_pos still, drain_work, shutdown, if_pos running]

theorem shutdown_run_work [DecidableEq ι] (p : Pipeline ι κ σ) (steps : Nat) (flushing : Bool) :
    (p.run s (List.replicate steps .work)).shutdown s flushing = p.shutdown s flushing := by
  induction steps generalizing p with
  | zero => rfl
  | succ steps inductionHypothesis =>
    exact (inductionHypothesis (p.work s)).trans (p.shutdown_work flushing)

end Draining

section Batches

/-- What is done with a stopped pipeline before it is started. -/
inductive Entry
  | setThreshold (level : Level)
  | log (origin : Origin) (level : Level) (session : Option String) (message : String)
  deriving DecidableEq, Repr

/-- An entry as a move. -/
def Entry.toMove {ι κ : Type} : Entry → Move ι κ
  | .setThreshold level => .setThreshold level
  | .log origin level session message => .submit origin level session message

/-- The threshold after entries. -/
def thresholdAfter (threshold : Level) : List Entry → Level
  | [] => threshold
  | .setThreshold level :: rest => thresholdAfter level rest
  | .log _ _ _ _ :: rest => thresholdAfter threshold rest

/-- The records of those events that are not below the threshold when they are logged. -/
def letIn (threshold : Level) : List Entry → List Record
  | [] => []
  | .setThreshold level :: rest => letIn level rest
  | .log origin level session message :: rest =>
    if threshold ≤ level then .capture origin level session message :: letIn threshold rest
    else letIn threshold rest

/-- Entries, then a start and a shutdown, with steps of the worker in between. -/
structure Batch where
  entries : List Entry
  steps : Nat
  flushing : Bool
  deriving DecidableEq, Repr

/-- A batch as moves. -/
def Batch.moves {ι κ : Type} (b : Batch) : List (Move ι κ) :=
  b.entries.map Entry.toMove ++ [.start] ++ List.replicate b.steps .work ++ [.shutdown b.flushing]

/-- Of each batch the last records let in, as many as may wait. -/
def delivered (capacity : Nat) (threshold : Level) : List Batch → List Record
  | [] => []
  | b :: rest =>
    (letIn threshold b.entries).rtake capacity ++
      delivered capacity (thresholdAfter threshold b.entries) rest

/-- A stopped pipeline with subscribers and sinks. -/
def furnished {ι κ σ : Type} (capacity : Nat) (outside : σ) (subscribers : List κ) (sinks : List ι) :
    Pipeline ι κ σ :=
  sinks.foldl addSink (subscribers.foldl (fun p k => (p.subscribe k).1) (create capacity outside))

variable {α κ τ : Type} [DecidableEq α] (others : Surroundings α κ (Host × τ))

/-- What entries do to a stopped pipeline. -/
structure Filled (p : Pipeline (Outlet α) κ (Outlets τ)) (entries : List Entry)
    (q : Pipeline (Outlet α) κ (Outlets τ)) : Prop where
  backlog : q.backlog.toList =
    (p.backlog.toList ++ letIn p.threshold entries).rtake p.backlog.capacity
  capacity : q.backlog.capacity = p.backlog.capacity
  threshold : q.threshold = thresholdAfter p.threshold entries
  sinks : q.sinks = p.sinks
  worker : q.worker = p.worker
  history : q.outside.history = p.outside.history

/-- A record let in joins those that wait; the history hears of it later. -/
theorem filled_run (p : Pipeline (Outlet α) κ (Outlets τ)) (entries : List Entry) :
    Filled p entries (p.run (.withOutlets others) (entries.map Entry.toMove)) := by
  induction entries generalizing p with
  | nil =>
    have bound : p.backlog.toList.length ≤ p.backlog.capacity := by
      rw [Backlog.length_toList]
      exact p.backlog.size_le
    exact ⟨by simp [run, letIn, rtake_of_length_le bound], rfl, rfl, rfl, rfl, rfl⟩
  | cons entry rest inductionHypothesis =>
    cases entry with
    | setThreshold level =>
      have filled := inductionHypothesis (p.setThreshold level)
      exact ⟨filled.backlog, filled.capacity, filled.threshold, filled.sinks, filled.worker,
        filled.history⟩
    | log origin level session message =>
      change Filled p (.log origin level session message :: rest)
        ((p.submit (.withOutlets others) origin level session message).run _ _)
      by_cases accepted : p.threshold ≤ level
      · let r := Record.capture origin level session message
        have submitted : p.submit (.withOutlets others) origin level session message =
            (p.announce (.withOutlets others) r).enqueue r :=
          if_pos (by simpa [accepts] using accepted)
        have admitted : letIn p.threshold (.log origin level session message :: rest) =
            r :: letIn p.threshold rest := if_pos accepted
        have waiting : (p.backlog.push r).toList = (p.backlog.toList ++ [r]).rtake p.backlog.capacity :=
          p.backlog.toList_push_rtake r
        have capacity : (p.backlog.push r).capacity = p.backlog.capacity := p.backlog.capacity_push r
        have unheard : (p.announce (.withOutlets others) r).outside.history = p.outside.history :=
          Surroundings.history_notifyAll others r _ _ _
        rw [submitted]
        have filled := inductionHypothesis ((p.announce (.withOutlets others) r).enqueue r)
        refine ⟨?_, filled.capacity.trans capacity, filled.threshold, filled.sinks, filled.worker,
          filled.history.trans unheard⟩
        rw [filled.backlog, admitted]
        change ((p.backlog.push r).toList ++ letIn p.threshold rest).rtake (p.backlog.push r).capacity = _
        rw [waiting, capacity, rtake_rtake_append, List.append_assoc, List.singleton_append]
      · have submitted : p.submit (.withOutlets others) origin level session message = p :=
          if_neg (by simpa [accepts] using accepted)
        have admitted : letIn p.threshold (.log origin level session message :: rest) =
            letIn p.threshold rest := if_neg accepted
        rw [submitted]
        have filled := inductionHypothesis p
        exact ⟨by rw [admitted]; exact filled.backlog, filled.capacity, filled.threshold,
          filled.sinks, filled.worker, filled.history⟩

/-- A stopped pipeline with nothing that waits. -/
structure AtRest (capacity : Nat) (threshold : Level) (sinks : List (Outlet α)) (h : History)
    (p : Pipeline (Outlet α) κ (Outlets τ)) : Prop where
  backlog : p.backlog.toList = []
  capacity : p.backlog.capacity = capacity
  threshold : p.threshold = threshold
  sinks : p.sinks = sinks
  worker : p.worker = .stopped
  history : p.outside.history = h

variable {capacity : Nat} {threshold : Level} {sinks : List (Outlet α)} {h : History}
  {p : Pipeline (Outlet α) κ (Outlets τ)}

/-- A shutdown right after the start hands the history what waits, once for each registration. -/
theorem atRest_shutdown (stopped : p.worker = .stopped) (flushing : Bool) :
    AtRest p.backlog.capacity p.threshold p.sinks
      (p.outside.history.hearing
        (p.backlog.toList.flatMap (List.replicate (p.sinks.count .history))))
      (p.start.shutdown (.withOutlets others) flushing) := by
  have started : p.start = { p with worker := .waiting } := by simp only [start, stopped]
  have heard := Surroundings.history_deliverAll others p.sinks p.backlog.toList p.outside
  rw [started]
  cases flushing with
  | false => exact ⟨rfl, rfl, rfl, rfl, rfl, (Surroundings.history_flushAll others _ _).trans heard⟩
  | true =>
    refine ⟨rfl, rfl, rfl, rfl, rfl, ?_⟩
    exact (Surroundings.history_flushAll others _ _).trans
      ((Surroundings.history_flushAll others _ _).trans heard)

theorem AtRest.batch (rest : AtRest capacity threshold sinks h p) (b : Batch) :
    AtRest capacity (thresholdAfter threshold b.entries) sinks
      (h.hearing (((letIn threshold b.entries).rtake capacity).flatMap
        (List.replicate (sinks.count .history))))
      (p.run (.withOutlets others) b.moves) := by
  have filled := filled_run others p b.entries
  have ended : p.run (.withOutlets others) b.moves =
      (p.run (.withOutlets others) (b.entries.map Entry.toMove)).start.shutdown
        (.withOutlets others) b.flushing := by
    rw [Batch.moves, run_append, run_append, run_append]
    exact shutdown_run_work _ b.steps b.flushing
  have atRest := atRest_shutdown others (filled.worker.trans rest.worker) b.flushing
  rw [filled.capacity, filled.threshold, filled.sinks, filled.history, filled.backlog, rest.backlog,
    rest.capacity, rest.threshold, rest.sinks, rest.history, List.nil_append] at atRest
  rw [ended]
  exact atRest

/-- Batch after batch the history hears of what is delivered, and of nothing else. -/
theorem AtRest.batches (rest : AtRest capacity threshold sinks h p) (batches : List Batch) :
    ∃ last, AtRest capacity last sinks
      (h.hearing ((delivered capacity threshold batches).flatMap
        (List.replicate (sinks.count .history))))
      (p.run (.withOutlets others) (batches.flatMap Batch.moves)) := by
  induction batches generalizing p threshold h with
  | nil => exact ⟨threshold, rest⟩
  | cons b later inductionHypothesis =>
    obtain ⟨last, atRest⟩ := inductionHypothesis (rest.batch others b)
    refine ⟨last, ?_⟩
    rw [List.flatMap_cons, run_append, delivered, List.flatMap_append, History.hearing_append]
    exact atRest

omit [DecidableEq α] in
theorem atRest_furnished (capacity : Nat) (o : Outlets τ) (subscribers : List κ)
    (sinks : List (Outlet α)) :
    AtRest (max capacity 1) .info sinks o.history (furnished capacity o subscribers sinks) := by
  have subscribed : ∀ p : Pipeline (Outlet α) κ (Outlets τ),
      AtRest (max capacity 1) .info [] o.history p →
      AtRest (max capacity 1) .info [] o.history
        (subscribers.foldl (fun p k => (p.subscribe k).1) p) := by
    intro p rest
    induction subscribers generalizing p with
    | nil => exact rest
    | cons k later inductionHypothesis =>
      exact inductionHypothesis _
        ⟨rest.backlog, rest.capacity, rest.threshold, rest.sinks, rest.worker, rest.history⟩
  have added : ∀ (earlier : List (Outlet α)) (p : Pipeline (Outlet α) κ (Outlets τ)),
      AtRest (max capacity 1) .info earlier o.history p →
      AtRest (max capacity 1) .info (earlier ++ sinks) o.history (sinks.foldl addSink p) := by
    intro earlier p rest
    induction sinks generalizing p earlier with
    | nil => exact (List.append_nil earlier).symm ▸ rest
    | cons sink later inductionHypothesis =>
      have joined : earlier ++ sink :: later = (earlier ++ [sink]) ++ later := by simp
      rw [joined]
      exact inductionHypothesis (earlier ++ [sink]) _
        ⟨rest.backlog, rest.capacity, rest.threshold, by rw [← rest.sinks]; rfl, rest.worker,
          rest.history⟩
  exact added [] _ (subscribed _ ⟨rfl, rfl, rfl, rfl, rfl, rfl⟩)

omit [DecidableEq α] in
/-- Queries go to the first sink that keeps a history. -/
theorem history?_of_first {before after : List (Outlet α)}
    (first : ∀ sink ∈ before, ∀ o, (Surroundings.withOutlets (κ := κ) others).history? sink o = none)
    (registered : p.sinks = before ++ .history :: after) :
    p.history? (.withOutlets others) = some (.history, p.outside.history) := by
  have skipped : before.findSome? (fun sink =>
      ((Surroundings.withOutlets others).history? sink p.outside).map (sink, ·)) = none := by
    rw [List.findSome?_eq_none_iff]
    intro sink member
    rw [first sink member, Option.map_none]
  rw [history?, registered, List.findSome?_append, skipped]
  rfl

omit [DecidableEq α] in
theorem history?_of_none
    (none : ∀ sink ∈ p.sinks, ∀ o, (Surroundings.withOutlets (κ := κ) others).history? sink o = none) :
    p.history? (.withOutlets others) = .none := by
  rw [history?, List.findSome?_eq_none_iff]
  intro sink member
  rw [none sink member, Option.map_none]

end Batches

end Pipeline

open Pipeline

/-- A pipeline is furnished with subscribers and sinks, which may fail and crash at will, and goes
through batches. The records delivered are, batch by batch, the last ones let in, as many as may wait.
If the history, without records at first, is the first sink that keeps one, it hears of each record as
often as it is registered, and in the end

* the last `n` records are the last of those heard, as many as are asked for and kept;
* the last `n` records of a session are the last of its records among those heard, as many as are
  asked for and kept for a session, where there can be slots for them at all, and otherwise none;
* the export of a session has a line for each of its records that are kept, in order.

If no sink keeps a history, there is nothing to be seen.

Proof: of all calls only those that hand the history a record change it, and a shutdown makes the same
of them however far the worker was. So each batch leaves the pipeline at rest, with the history that
has heard of what was delivered. -/
theorem queries_exact {α κ τ : Type} [DecidableEq α] (others : Surroundings α κ (Host × τ))
    (capacity globalCapacity sessionCapacity : Nat) (o : Outlets τ) (subscribers : List κ)
    (sinks : List (Outlet α)) (batches : List Batch) :
    let s : Surroundings (Outlet α) κ (Outlets τ) := .withOutlets others
    let start := furnished capacity { o with history := .empty globalCapacity sessionCapacity }
      subscribers sinks
    let p := start.run s (batches.flatMap Batch.moves)
    let heard := (delivered (max capacity 1) .info batches).flatMap
      (List.replicate (sinks.count .history))
    let heardOf (session : String) (n : Nat) :=
      if History.hasRoom sessionCapacity then
        (heard.filter (·.session = some session)).rtake (min n sessionCapacity)
      else []
    (∀ before after, sinks = before ++ .history :: after →
      (∀ sink ∈ before, ∀ o, s.history? sink o = none) →
        (∀ n, p.latest s n = heard.rtake (min n globalCapacity)) ∧
        (∀ session n, p.latestOf s session n = heardOf session n) ∧
        ∀ session, p.exportOf s session =
          String.join ((heardOf session sessionCapacity).map fun r => r.exported ++ "\n")) ∧
    ((∀ sink ∈ sinks, ∀ o, s.history? sink o = none) →
      (∀ n, p.latest s n = []) ∧
      (∀ session n, p.latestOf s session n = []) ∧
      ∀ session, p.exportOf s session = "") := by
  intro s start p heard heardOf
  obtain ⟨last, atRest⟩ :=
    (atRest_furnished capacity { o with history := .empty globalCapacity sessionCapacity }
      subscribers sinks).batches others batches
  have registered : p.sinks = sinks := atRest.sinks
  have history : p.outside.history = (History.empty globalCapacity sessionCapacity).hearing heard :=
    atRest.history
  refine ⟨fun before after split first => ?_, fun none => ?_⟩
  · have found := history?_of_first others first (registered.trans split)
    refine ⟨fun n => ?_, fun session n => ?_, fun session => ?_⟩
    · rw [Pipeline.latest, found, history]
      exact History.latest_hearing globalCapacity sessionCapacity heard n
    · rw [Pipeline.latestOf, found, history]
      exact History.latestOf_hearing globalCapacity sessionCapacity heard session n
    · have kept := History.toList_ofSession_hearing globalCapacity sessionCapacity heard session
      rw [Pipeline.exportOf, found, history]
      simp only [Option.map_some, Option.getD_some, History.exportOf, kept, heardOf, Nat.min_self]
  · rw [← registered] at none
    have missing := history?_of_none others none
    refine ⟨fun n => ?_, fun session n => ?_, fun session => ?_⟩
    · rw [Pipeline.latest, missing]; rfl
    · rw [Pipeline.latestOf, missing]; rfl
    · rw [Pipeline.exportOf, missing]; rfl

/-- Behind a sink that crashes, the history hears of a batch that overflows and of one with a raised
threshold. Without the history there is nothing to be seen. -/
theorem queries_of_two_batches :
    let crashing : Surroundings Unit Empty (Host × Unit) :=
      ⟨fun _ _ w => (w, .crashed), fun _ w => (w, .completed), nofun, fun _ w => w,
        fun _ _ => none, fun _ _ w => w⟩
    let s : Surroundings (Outlet Unit) Empty (Outlets Unit) := .withOutlets crashing
    let batches : List Batch :=
      [⟨[.log ⟨⟨0⟩, 7⟩ .warn (some "s") "a", .log ⟨⟨1⟩, 7⟩ .info (some "s") "b",
          .log ⟨⟨2⟩, 7⟩ .error none "c"], 3, true⟩,
        ⟨[.setThreshold .error, .log ⟨⟨3⟩, 7⟩ .warn (some "s") "d"], 0, false⟩]
    let o : Outlets Unit := { Outlets.ofHistory default default () with history := .empty 9 1 }
    let p := (furnished 2 o [] [.other (), .history]).run s (batches.flatMap Batch.moves)
    let q := (furnished 2 o [] [.other ()]).run s (batches.flatMap Batch.moves)
    [Outlet.other (), .history] = [.other ()] ++ Outlet.history :: [] ∧
      (∀ sink ∈ [Outlet.other ()], ∀ o, s.history? sink o = none) ∧
      p.latest s 9 = [⟨⟨1⟩, 7, .info, some "s", "b"⟩, ⟨⟨2⟩, 7, .error, none, "c"⟩] ∧
      p.latestOf s "s" 9 = [⟨⟨1⟩, 7, .info, some "s", "b"⟩] ∧
      q.exportOf s "s" = "" := by
  intro crashing s batches o p q
  have silent : ∀ sink ∈ [Outlet.other ()], ∀ o, s.history? sink o = none := by
    intro sink member o
    obtain rfl := List.mem_singleton.1 member
    rfl
  have behind := (queries_exact crashing 2 9 1 (Outlets.ofHistory default default ()) []
    [.other (), .history] batches).1 [.other ()] [] rfl silent
  have without := (queries_exact crashing 2 9 1 (Outlets.ofHistory default default ()) []
    [.other ()] batches).2 silent
  refine ⟨rfl, silent, (behind.1 9).trans ?_, (behind.2.1 "s" 9).trans ?_, without.2.2 "s"⟩
  · decide +kernel
  · decide +kernel

/-- It is not the case that a history always shows the last of what was delivered: one that is
registered twice shows the one record twice, and one whose slots for a session cannot be set aside
shows nothing of the session. -/
theorem queries_of_doubled_history :
    let s : Surroundings (Outlet Empty) Empty (Outlets Unit) := .withOutlets .nothing
    let r : Record := ⟨⟨0⟩, 7, .info, some "s", "a"⟩
    let batch : Batch := ⟨[.log ⟨⟨0⟩, 7⟩ .info (some "s") "a"], 0, true⟩
    let records := delivered 4 .info [batch]
    let queried (sessionCapacity : Nat) (sinks : List (Outlet Empty)) :=
      (furnished 4 (Outlets.ofHistory default (.empty 4 sessionCapacity) ()) [] sinks).run s
        batch.moves
    let doubled := queried 4 [.history, .history]
    let crowded := queried 0x4000000000000000 [.history]
    records = [r] ∧
      doubled.latest s 9 = [r, r] ∧ doubled.latest s 9 ≠ records.rtake (min 9 4) ∧
      doubled.latestOf s "s" 9 = [r, r] ∧
      crowded.latestOf s "s" 9 = [] ∧
      crowded.latestOf s "s" 9 ≠
        (records.filter (·.session = some "s")).rtake (min 9 0x4000000000000000) := by
  decide +kernel

end KeyValueService
