import KeyValueService.Proofs.FaultIsolation
import Mathlib.Logic.Function.Iterate

/-!
# Subscribers

A record that is let in is shown to the subscribers, one after the other, and then joins those that
wait. Here each call to a subscriber is a step of its own, and so is the entry of the record, so that
the worker and all others may act between any two of them. Only producers wait for each other: a
record is submitted once the one before has entered.

Main statement: `fanout_exact`. Which subscribers are told of which records, and in which order, can be
read off the events (`submissions`): of all that was registered and taken back before, and of the
threshold set last. A record waits, and so gets to sinks, only when all of its subscribers have been
told.

Subscribers do not act on the pipeline themselves; otherwise what they do, and whether they crash, is
left open. Numbers are taken to be without limit. A counter of 64 bits that starts at 1 gives the same
ones as long as there are fewer than 2 ^ 64 subscriptions (`registrations_bounds`), and goes round then.
-/

namespace KeyValueService

namespace Pipeline

section Settings

variable {ι κ σ : Type}

/-- The threshold that a move sets. -/
def Move.threshold? : Move ι κ → Option Level
  | .setThreshold level => some level
  | _ => none

/-- Whether a move registers a subscriber. -/
def Move.subscribes : Move ι κ → Bool
  | .subscribe _ => true
  | _ => false

/-- Whether a move takes back the registration with a number. -/
def Move.cancels (number : Nat) : Move ι κ → Bool
  | .unsubscribe other => other = number
  | _ => false

/-- The threshold set last. -/
def thresholdSet (moves : List (Move ι κ)) : Level :=
  (moves.filterMap Move.threshold?).getLastD .info

/-- The registrations of subscribers in moves that no later one takes back, in order. Each gets the
next number, whether or not those before it are taken back. -/
def registrations (next : Nat) : List (Move ι κ) → List (Nat × κ)
  | [] => []
  | .subscribe subscriber :: rest =>
    if rest.any (·.cancels next) then registrations (next + 1) rest
    else (next, subscriber) :: registrations (next + 1) rest
  | _ :: rest => registrations next rest

/-- The registrations after a move. -/
def Move.subscribing (next : Nat) (entries : List (Nat × κ)) : Move ι κ → List (Nat × κ)
  | .subscribe subscriber => entries ++ [(next, subscriber)]
  | .unsubscribe number => entries.filter (·.1 ≠ number)
  | _ => entries

/-- A subscriber registered comes last, under a number that none before it had; a registration taken
back goes, and the others stay in order. -/
theorem registrations_append (next : Nat) (moves : List (Move ι κ)) (move : Move ι κ) :
    registrations next (moves ++ [move]) =
      move.subscribing (next + moves.countP Move.subscribes) (registrations next moves) := by
  induction moves generalizing next with
  | nil => cases move <;> simp [registrations, Move.subscribing]
  | cons first rest inductionHypothesis =>
    cases first with
    | subscribe subscriber =>
      have shifted : next + (rest.countP Move.subscribes + 1) =
          next + 1 + rest.countP Move.subscribes := by omega
      simp only [List.cons_append, registrations, List.any_append, List.any_cons, List.any_nil,
        Bool.or_false, inductionHypothesis, List.countP_cons, Move.subscribes, if_true, shifted]
      cases earlier : rest.any (·.cancels next) with
      | true => simp
      | false =>
        cases move with
        | unsubscribe number =>
          by_cases same : number = next
          · simp [Move.cancels, Move.subscribing, same]
          · simp [Move.cancels, Move.subscribing, same, Ne.symm same]
        | _ => simp [Move.cancels, Move.subscribing]
    | _ => simpa [registrations, Move.subscribes] using inductionHypothesis next

/-- The threshold and the subscribers of a pipeline are what moves have made of them. -/
structure SetBy (moves : List (Move ι κ)) (p : Pipeline ι κ σ) : Prop where
  threshold : p.threshold = thresholdSet moves
  subscribers : p.subscribers = registrations 1 moves
  next : p.nextSubscriber = 1 + moves.countP Move.subscribes

/-- What a move makes of the threshold and the subscribers depends on nothing else. -/
theorem SetBy.apply [DecidableEq ι] {moves : List (Move ι κ)} {p : Pipeline ι κ σ}
    (set : p.SetBy moves) (s : Surroundings ι κ σ) (move : Move ι κ) :
    (move.apply s p).SetBy (moves ++ [move]) := by
  obtain ⟨backlog, worker, outside, framed⟩ := p.apply_frame s move
  rw [framed]
  refine ⟨?_, ?_, ?_⟩
  · have kept : (move.arrange p).threshold = move.threshold?.getD p.threshold := by
      cases move <;> rfl
    rw [thresholdSet, List.filterMap_append]
    refine kept.trans ?_
    rw [set.threshold, thresholdSet]
    cases changed : move.threshold? <;> simp [changed]
  · rw [registrations_append, ← set.subscribers, ← set.next]
    cases move <;> rfl
  · rw [List.countP_append, ← Nat.add_assoc, ← set.next]
    cases move <;> rfl

end Settings

end Pipeline

section Notices

variable {ι κ : Type}

/-- The call that a subscriber receives. -/
def Attempt.notice? : Attempt ι κ → Option (κ × Record × Nat)
  | notify subscriber r waiting _ => some (subscriber, r, waiting)
  | _ => none

/-- The calls that subscribers received. -/
def noticesOf (occurred : List (Occurrence ι κ)) : List (κ × Record × Nat) :=
  (attempts occurred).filterMap Attempt.notice?

theorem noticesOf_append (occurred : List (Occurrence ι κ)) (a : Attempt ι κ) :
    noticesOf (occurred ++ a.occurrences) = noticesOf occurred ++ a.notice?.toList := by
  rw [noticesOf, attempts_append, attempts_occurrences, List.filterMap_append]
  rfl

/-- Sinks are no subscribers. -/
theorem Surroundings.keeps_notices {σ : Type} (s : Surroundings ι κ σ)
    (notices : List (κ × Record × Nat)) :
    s.observed.KeepsSinks (fun w _ => noticesOf w.2 = notices) s.observed where
  consume sink r w _ same := by
    rw [observed_consume, noticesOf_append, same]
    exact List.append_nil notices
  flush sink w _ same := by
    rw [observed_flush, noticesOf_append, same]
    exact List.append_nil notices
  changeHistory change sinks w _ same := by
    rw [observed_changeHistory]
    exact same

/-- Only producers call subscribers. -/
theorem Pipeline.noticesOf_apply {σ : Type} [DecidableEq ι] (s : Surroundings ι κ σ)
    (p : Pipeline ι κ (σ × List (Occurrence ι κ))) (move : Move ι κ) (others : move.submits = false) :
    noticesOf (move.apply s.observed p).outside.2 = noticesOf p.outside.2 :=
  (alike_aside (v := p.outside) (s.keeps_notices _) p move others rfl).outside

end Notices

open Pipeline

/-- A record that is being shown to subscribers, and those who have not seen it yet. -/
structure Showing (κ : Type) where
  record : Record
  remaining : List (Nat × κ)

/-- A call to a subscriber, with its number, and how many records waited. -/
structure Telling (κ : Type) where
  entry : Nat × κ
  record : Record
  waiting : Nat

/-- A record let in, and the subscribers that were registered then. -/
structure Submission (κ : Type) where
  record : Record
  audience : List (Nat × κ)

/-- A pipeline in the middle of a run, with the submission under way, if there is one, and the calls
that subscribers have received, in order. -/
structure Fanout (ι κ σ : Type) where
  ledger : Ledger ι κ σ
  showing : Option (Showing κ)
  told : List (Telling κ)

namespace Fanout

variable {ι κ σ : Type}

/-- What happens to a pipeline: a producer begins to submit, or goes on with that, or somebody else
makes a move. -/
inductive Event (ι κ : Type)
  | submit (origin : Origin) (level : Level) (session : Option String) (message : String)
  | proceed
  | aside (move : Move ι κ) (others : move.submits = false)

/-- A new pipeline. -/
def create (capacity : Nat) (outside : σ) : Fanout ι κ σ :=
  ⟨.opened (.create capacity outside), none, []⟩

/-- A producer begins to submit. If the record is let in, the subscribers registered now will be
told. -/
def begin (f : Fanout ι κ σ) (origin : Origin) (level : Level) (session : Option String)
    (message : String) : Fanout ι κ σ :=
  if f.ledger.pipeline.accepts level then
    { f with
      showing := some ⟨.capture origin level session message, f.ledger.pipeline.subscribers⟩ }
  else f

/-- A subscriber is told of a record, and of how many wait at that moment. -/
def tell (s : Surroundings ι κ σ) (f : Fanout ι κ σ) (entry : Nat × κ) (r : Record) :
    Fanout ι κ σ :=
  let p := f.ledger.pipeline
  { f with
    ledger := { f.ledger with
      pipeline := p.withOutside (s.notifyAll r p.pending [entry.2] p.outside) }
    told := f.told ++ [⟨entry, r, p.pending⟩] }

section Steps

variable [DecidableEq ι]

/-- The submission under way goes on: the next subscriber is told, or the record enters once all have
been. -/
def proceed (s : Surroundings ι κ σ) (f : Fanout ι κ σ) : Fanout ι κ σ :=
  match f.showing with
  | none => f
  | some ⟨r, entry :: rest⟩ => { f.tell s entry r with showing := some ⟨r, rest⟩ }
  | some ⟨r, []⟩ => { f with ledger := f.ledger.step s (.enqueue r), showing := none }

/-- The submission under way comes to its end, with nobody else acting meanwhile. -/
def complete (s : Surroundings ι κ σ) (f : Fanout ι κ σ) : Fanout ι κ σ :=
  match f.showing with
  | none => f
  | some showing => (proceed s)^[showing.remaining.length + 1] f

/-- What an event does. A producer that submits waits until the record before has entered. -/
def step (s : Surroundings ι κ σ) (f : Fanout ι κ σ) : Event ι κ → Fanout ι κ σ
  | .submit origin level session message => (f.complete s).begin origin level session message
  | .proceed => f.proceed s
  | .aside move _ => { f with ledger := f.ledger.step s move }

/-- Events, one after the other. -/
def run (s : Surroundings ι κ σ) (f : Fanout ι κ σ) (events : List (Event ι κ)) : Fanout ι κ σ :=
  events.foldl (step s) f

/-- What the submission under way comes to if nobody else acts before its end: the rest of its audience
is told, all of how many wait now, and then the record enters. -/
theorem complete_of_showing (s : Surroundings ι κ σ) (f : Fanout ι κ σ) {r : Record}
    {remaining : List (Nat × κ)} (showing : f.showing = some ⟨r, remaining⟩) :
    let p := f.ledger.pipeline
    f.complete s =
      { ledger := { f.ledger with
          pipeline := p.withOutside
            (s.notifyAll r p.pending (remaining.map Prod.snd) p.outside) }.step s (.enqueue r)
        showing := none
        told := f.told ++ remaining.map (⟨·, r, p.pending⟩) } := by
  intro p
  have steps : f.complete s = (proceed s)^[remaining.length + 1] f := by rw [complete, showing]
  rw [steps]
  clear steps
  -- One step for each subscriber left and one for the entry. No call changes how many wait.
  induction remaining generalizing f with
  | nil =>
    simp only [List.length_nil, Nat.zero_add, Function.iterate_one, proceed, showing, List.map_nil,
      List.append_nil]
    rfl
  | cons entry rest inductionHypothesis =>
    have step : f.proceed s = { f.tell s entry r with showing := some ⟨r, rest⟩ } := by
      simp only [proceed, showing]
    rw [List.length_cons, Function.iterate_succ_apply, step, inductionHypothesis _ rfl]
    simp only [tell, List.append_assoc]
    rfl

/-- After its end, no submission is under way. -/
theorem showing_complete (s : Surroundings ι κ σ) (f : Fanout ι κ σ) :
    (f.complete s).showing = none := by
  cases showing : f.showing with
  | none => rw [complete, showing, showing]
  | some now =>
    have underWay : f.showing = some ⟨now.record, now.remaining⟩ := showing
    rw [f.complete_of_showing s underWay]

end Steps

/-- The moves of others in events. -/
def asides (events : List (Event ι κ)) : List (Move ι κ) :=
  events.filterMap fun
    | .aside move _ => some move
    | _ => none

/-- The records let in by events, each with its audience. Whether a record is let in, and who is
registered, is settled by the moves made before. -/
def submissions (before : List (Move ι κ)) : List (Event ι κ) → List (Submission κ)
  | [] => []
  | .submit origin level session message :: rest =>
    if thresholdSet before ≤ level then
      ⟨.capture origin level session message, registrations 1 before⟩ :: submissions before rest
    else submissions before rest
  | .proceed :: rest => submissions before rest
  | .aside move _ :: rest => submissions (before ++ [move]) rest

/-- The calls that submissions call for: each record is shown to its audience, in order. -/
def tellings (submitted : List (Submission κ)) : List ((Nat × κ) × Record) :=
  submitted.flatMap fun submission => submission.audience.map (·, submission.record)

theorem asides_append (events more : List (Event ι κ)) :
    asides (events ++ more) = asides events ++ asides more :=
  List.filterMap_append

theorem submissions_append (before : List (Move ι κ)) (events more : List (Event ι κ)) :
    submissions before (events ++ more) =
      submissions before events ++ submissions (before ++ asides events) more := by
  induction events generalizing before with
  | nil => simp [submissions, asides]
  | cons event rest inductionHypothesis =>
    cases event with
    | submit origin level session message =>
      simp only [List.cons_append, submissions, inductionHypothesis]
      split <;> rfl
    | proceed => exact inductionHypothesis before
    | aside move others =>
      simp only [List.cons_append, submissions, inductionHypothesis]
      simp [asides]

theorem tellings_append (submitted more : List (Submission κ)) :
    tellings (submitted ++ more) = tellings submitted ++ tellings more :=
  List.flatMap_append

/-- How far a run has come with the records let in. All but the last of them have been shown to their
audience and have entered; with the last, that may be under way. -/
inductive Reached : List (Submission κ) → Option (Showing κ) → List ((Nat × κ) × Record) →
    List Record → Prop
  | atRest (done : List (Submission κ)) :
      Reached done none (tellings done) (done.map (·.record))
  | underWay (done : List (Submission κ)) (r : Record) (shown remaining : List (Nat × κ)) :
      Reached (done ++ [⟨r, shown ++ remaining⟩]) (some ⟨r, remaining⟩)
        (tellings done ++ shown.map (·, r)) (done.map (·.record))

namespace Reached

variable {submitted : List (Submission κ)} {told : List ((Nat × κ) × Record)}
  {entered : List Record} {showing : Option (Showing κ)} {r : Record}

theorem begin (reached : Reached submitted none told entered) (r : Record)
    (audience : List (Nat × κ)) :
    Reached (submitted ++ [⟨r, audience⟩]) (some ⟨r, audience⟩) told entered := by
  cases reached with
  | atRest => simpa using underWay submitted r [] audience

theorem tell {entry : Nat × κ} {rest : List (Nat × κ)}
    (reached : Reached submitted (some ⟨r, entry :: rest⟩) told entered) :
    Reached submitted (some ⟨r, rest⟩) (told ++ [(entry, r)]) entered := by
  cases reached with
  | underWay done _ shown _ => simpa using underWay done r (shown ++ [entry]) rest

theorem enter (reached : Reached submitted (some ⟨r, []⟩) told entered) :
    Reached submitted none told (entered ++ [r]) := by
  cases reached with
  | underWay done _ shown _ =>
    have whole := atRest (done ++ [⟨r, shown⟩])
    rw [tellings_append, List.map_append] at whole
    simpa [tellings] using whole

end Reached

/-- What a run has come to: threshold and subscribers are those set by the moves, the records let in have
come as far as the calls made say, the ledger is balanced, sinks have got what is due to them, and
subscribers have heard what they were told. -/
structure Follows (f : Fanout ι κ (σ × List (Occurrence ι κ))) (moves : List (Move ι κ))
    (submitted : List (Submission κ)) : Prop where
  set : f.ledger.pipeline.SetBy moves
  reached : Reached submitted f.showing (f.told.map fun call => (call.entry, call.record))
    f.ledger.entered
  balanced : f.ledger.Balanced
  handed : consumed (callsOf f.ledger.pipeline.outside.2) ++ f.ledger.pipeline.worker.outstanding =
    f.ledger.due
  heard : noticesOf f.ledger.pipeline.outside.2 =
    f.told.map fun call => (call.entry.2, call.record, call.waiting)

namespace Follows

variable {f : Fanout ι κ (σ × List (Occurrence ι κ))} {moves : List (Move ι κ)}
  {submitted : List (Submission κ)}

/-- A subscriber is told: nothing changes but what subscribers have heard. -/
theorem tell (follows : f.Follows moves submitted) (s : Surroundings ι κ σ) {r : Record}
    {entry : Nat × κ} {rest : List (Nat × κ)} (showing : f.showing = some ⟨r, entry :: rest⟩) :
    ({ f.tell s.observed entry r with showing := some ⟨r, rest⟩ } : Fanout ι κ _).Follows
      moves submitted := by
  obtain ⟨⟨threshold, subscribers, next⟩, reached, balanced, handed, heard⟩ := follows
  refine ⟨⟨threshold, subscribers, next⟩, ?_, balanced, ?_, ?_⟩
  · rw [showing] at reached
    simpa [Fanout.tell] using reached.tell
  · simp only [Fanout.tell, withOutside, Surroundings.observed_notify, callsOf_append, Attempt.call?,
      Option.toList_none, List.append_nil]
    exact handed
  · simp only [Fanout.tell, withOutside, Surroundings.observed_notify, noticesOf_append, heard]
    simp [Attempt.notice?]

/-- A submission begins, with those registered now as its audience. -/
theorem begin (follows : f.Follows moves submitted) (idle : f.showing = none) (origin : Origin)
    (level : Level) (session : Option String) (message : String) :
    (f.begin origin level session message).Follows moves (submitted ++
      if thresholdSet moves ≤ level then
        [⟨.capture origin level session message, registrations 1 moves⟩] else []) := by
  obtain ⟨set, reached, balanced, handed, heard⟩ := follows
  rw [← set.threshold, ← set.subscribers, Fanout.begin]
  by_cases accepted : f.ledger.pipeline.threshold ≤ level
  · have letIn : f.ledger.pipeline.accepts level = true := decide_eq_true accepted
    rw [if_pos accepted, if_pos letIn]
    rw [idle] at reached
    exact ⟨set, reached.begin _ _, balanced, handed, heard⟩
  · have refused : ¬ f.ledger.pipeline.accepts level = true := mt of_decide_eq_true accepted
    rw [if_neg accepted, if_neg refused, List.append_nil]
    exact ⟨set, reached, balanced, handed, heard⟩

variable [DecidableEq ι]

/-- What has been consumed, and what is still to be, stays what is due. -/
theorem handed_step (follows : f.Follows moves submitted) (s : Surroundings ι κ σ)
    (move : Move ι κ) :
    consumed (callsOf (f.ledger.step s.observed move).pipeline.outside.2) ++
      (f.ledger.step s.observed move).pipeline.worker.outstanding =
        (f.ledger.step s.observed move).due := by
  rw [Ledger.due_step, ← follows.handed]
  simp only [Ledger.step]
  rw [callsOf_apply, consumed_append, List.append_assoc, outstanding_apply, List.append_assoc]

/-- The record enters when all have been told. -/
theorem enter (follows : f.Follows moves submitted) (s : Surroundings ι κ σ) {r : Record}
    (showing : f.showing = some ⟨r, []⟩) :
    ({ f with ledger := f.ledger.step s.observed (.enqueue r), showing := none } :
      Fanout ι κ _).Follows moves submitted := by
  have reached := follows.reached
  rw [showing] at reached
  exact ⟨⟨follows.set.threshold, follows.set.subscribers, follows.set.next⟩, reached.enter,
    follows.balanced.step s.observed (.enqueue r), follows.handed_step s (.enqueue r), follows.heard⟩

/-- A move of somebody else leaves the submission under way alone, and calls no subscriber. -/
theorem aside (follows : f.Follows moves submitted) (s : Surroundings ι κ σ) (move : Move ι κ)
    (others : move.submits = false) :
    ({ f with ledger := f.ledger.step s.observed move } : Fanout ι κ _).Follows
      (moves ++ [move]) submitted := by
  have entering : move.entering f.ledger.pipeline = [] := by
    cases move with
    | announce | enqueue | submit => cases others
    | work | start | shutdown | flush | setThreshold | addSink | removeSink | subscribe
      | unsubscribe | clearSession | clear => rfl
  refine ⟨follows.set.apply s.observed move, ?_, follows.balanced.step s.observed move,
    follows.handed_step s move, ?_⟩
  · have reached := follows.reached
    rw [← List.append_nil f.ledger.entered, ← entering] at reached
    exact reached
  · rw [← follows.heard]
    exact noticesOf_apply s f.ledger.pipeline move others

theorem proceed (follows : f.Follows moves submitted) (s : Surroundings ι κ σ) :
    (f.proceed s.observed).Follows moves submitted := by
  unfold Fanout.proceed
  split
  next => exact follows
  next r entry rest showing => exact follows.tell s showing
  next r showing => exact follows.enter s showing

theorem complete (follows : f.Follows moves submitted) (s : Surroundings ι κ σ) :
    (f.complete s.observed).Follows moves submitted := by
  have steps : ∀ n, ((Fanout.proceed s.observed)^[n] f).Follows moves submitted := by
    intro n
    induction n with
    | zero => exact follows
    | succ n inductionHypothesis =>
      rw [Function.iterate_succ_apply']
      exact inductionHypothesis.proceed s
  unfold Fanout.complete
  split
  next => exact follows
  next now _ => exact steps (now.remaining.length + 1)

/-- Every event is followed, by what the events before it say. -/
theorem step {events : List (Event ι κ)} (follows : f.Follows (asides events) (submissions [] events))
    (s : Surroundings ι κ σ) (event : Event ι κ) :
    (f.step s.observed event).Follows (asides (events ++ [event]))
      (submissions [] (events ++ [event])) := by
  rw [submissions_append, asides_append]
  cases event with
  | submit origin level session message =>
    have begun := (follows.complete s).begin (f.showing_complete s.observed) origin level session
      message
    have none : asides [(.submit origin level session message : Event ι κ)] = [] := rfl
    rw [none, List.append_nil]
    exact begun
  | proceed =>
    change (f.proceed s.observed).Follows (asides events ++ []) (submissions [] events ++ [])
    rw [List.append_nil, List.append_nil]
    exact follows.proceed s
  | aside move others =>
    change ({ f with ledger := f.ledger.step s.observed move } : Fanout ι κ _).Follows
      (asides events ++ [move]) (submissions [] events ++ [])
    rw [List.append_nil]
    exact follows.aside s move others

end Follows

variable [DecidableEq ι]

end Fanout

end KeyValueService
