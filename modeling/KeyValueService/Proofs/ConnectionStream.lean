import KeyValueService.Proofs.ServiceDeeds
import KeyValueService.Proofs.StreamSegments
import KeyValueService.Service.Connection

/-!
# What a connection makes of a stream

The bytes of a client arrive in pieces that have nothing to do with its lines, with pauses between
them, while other clients change the service (`Connection.follow`). The same client could hand over
whole lines, one after the other, until an answer ends the conversation (`Dialogue.hold`).

`Matches` relates the two: what has been answered is the same, and what waits is what has arrived
behind the last line feed. A piece keeps it (`Matches.receive`), and so does everything that happens
as long as no pause finds a line that has grown too long (`Matches.follow`). So it does not matter
where a stream is cut.
-/

namespace KeyValueService

open Bytes

namespace Service

/-- Only a line that is answered with a farewell can ask for a shutdown. -/
theorem shutdownRequested_handle (s : Service) (origin : Origin) (session : Session)
    (line : List Char) (stays : (s.handle origin session line).2.2.closes = false) :
    (s.handle origin session line).1.shutdownRequested = s.shutdownRequested := by
  obtain ⟨done, note, handling, reached⟩ := s.handling_of_handle origin session line
  rw [reached, (done.onlyLogged_noted origin session.name note).shutdownRequested]
  generalize (s.handle origin session line).2.2 = response at stays handling
  cases handling with
  | rejected read => rfl
  | barred read guest => rfl
  | carriedOut read deed =>
    cases deed with
    | shutdown => exact Bool.noConfusion stays
    | _ => rfl

end Service

/-- What a client that hands over whole lines does, or what happens to the service meanwhile. -/
inductive Turn
  | line (origin : Origin) (bytes : List UInt8)
  | elsewhere (change : Service → Service)

/-- The line that is handed over. -/
def Turn.line? : Turn → Option (List UInt8)
  | line _ bytes => some bytes
  | elsewhere _ => none

/-- The change of the service. -/
def Turn.change? : Turn → Option (Service → Service)
  | line _ _ => none
  | elsewhere change => some change

/-- A conversation of the service with a client that hands over whole lines: the lines that the
service has executed, and the answer to each. -/
structure Dialogue where
  service : Service
  session : Session
  heard : List (List UInt8)
  answers : List Response

namespace Dialogue

/-- A conversation that has just begun, in a session of the given name. -/
def opening (s : Service) (name : String) : Dialogue where
  service := s
  session := s.openSession name
  heard := []
  answers := []

/-- Whether an answer has ended the conversation. -/
def isOver (d : Dialogue) : Bool :=
  d.answers.any Response.closes

/-- A line is executed, unless the conversation is over. -/
def turn (d : Dialogue) : Turn → Dialogue
  | .elsewhere change => { d with service := change d.service }
  | .line origin bytes =>
    if d.isOver then d
    else
      let (service, session, answer) := d.service.handle origin d.session (decodeLossy bytes)
      { service, session, heard := d.heard ++ [bytes], answers := d.answers ++ [answer] }

/-- One turn after the other. -/
def hold (d : Dialogue) (turns : List Turn) : Dialogue :=
  turns.foldl turn d

theorem turn_line_of_over {d : Dialogue} (ended : d.isOver = true) (origin : Origin)
    (bytes : List UInt8) : d.turn (.line origin bytes) = d := by
  rw [turn, if_pos ended]

theorem hold_append (d : Dialogue) (turns more : List Turn) :
    d.hold (turns ++ more) = (d.hold turns).hold more :=
  List.foldl_append

/-- Each line is executed at most once and in its turn, and is answered; only the last answer ends
the conversation, and without one that does every line has been executed. -/
structure InOrder (lines : List (List UInt8)) (d : Dialogue) : Prop where
  heard : d.heard <+: lines
  answered : d.answers.length = d.heard.length
  complete : d.isOver = false → d.heard = lines
  ending : ∀ answer ∈ d.answers.dropLast, answer.closes = false

theorem InOrder.turn {lines : List (List UInt8)} {d : Dialogue} (ordered : InOrder lines d)
    (turn : Turn) : InOrder (lines ++ turn.line?.toList) (d.turn turn) := by
  cases turn with
  | elsewhere change =>
    rw [Turn.line?, Option.toList_none, List.append_nil]
    exact ⟨ordered.heard, ordered.answered, ordered.complete, ordered.ending⟩
  | line origin bytes =>
    rw [Turn.line?, Option.toList_some]
    cases status : d.isOver with
    | true =>
      rw [turn_line_of_over status]
      refine ⟨ordered.heard.trans (List.prefix_append lines [bytes]), ordered.answered, ?_,
        ordered.ending⟩
      exact fun ongoing => Bool.noConfusion (status.symm.trans ongoing)
    | false =>
      have all : d.heard = lines := ordered.complete status
      have none : ∀ answer ∈ d.answers, answer.closes = false := by
        simpa [isOver] using status
      simp only [Dialogue.turn, status, Bool.false_eq_true, if_false]
      constructor
      · exact all ▸ List.prefix_rfl
      · simp only [List.length_append, List.length_singleton, ordered.answered]
      · exact fun _ => by rw [all]
      · simpa using none

theorem InOrder.hold {lines : List (List UInt8)} {d : Dialogue} (ordered : InOrder lines d)
    (turns : List Turn) : InOrder (lines ++ turns.filterMap Turn.line?) (d.hold turns) := by
  induction turns generalizing lines d with
  | nil =>
    rw [List.filterMap_nil, List.append_nil]
    exact ordered
  | cons turn rest inductionHypothesis =>
    have more := inductionHypothesis (ordered.turn turn)
    have first : (turn :: rest).filterMap Turn.line? =
        turn.line?.toList ++ rest.filterMap Turn.line? := by
      rw [List.filterMap_cons]
      cases turn.line? <;> rfl
    rw [first, ← List.append_assoc]
    exact more

theorem inOrder_hold (s : Service) (name : String) (turns : List Turn) :
    InOrder (turns.filterMap Turn.line?) ((opening s name).hold turns) := by
  have begun : InOrder [] (opening s name) :=
    ⟨List.prefix_rfl, rfl, fun _ => rfl, fun _ member => nomatch member⟩
  have ordered := begun.hold turns
  rw [List.nil_append] at ordered
  exact ordered

end Dialogue

namespace Connection

/-- What happens while a client sends: a piece arrives, or nothing does for a while, or something
that is not the client's changes the service. -/
inductive Event
  | bytes (origin : Origin) (piece : List UInt8)
  | pause (origin : Origin)
  | elsewhere (change : Service → Service)

namespace Event

/-- What the event does to the service and the connection. -/
def apply (state : Service × Connection) : Event → Service × Connection
  | bytes origin piece => step origin state.1 state.2 (.bytes piece)
  | pause origin => step origin state.1 state.2 .pause
  | elsewhere change => (change state.1, state.2)

/-- The bytes that arrive. -/
def piece : Event → List UInt8
  | bytes _ piece => piece
  | _ => []

/-- The change of the service that is not the client's. -/
def change? : Event → Option (Service → Service)
  | elsewhere change => some change
  | _ => none

end Event

/-- Follows events, one after the other. -/
def follow (state : Service × Connection) (events : List Event) : Service × Connection :=
  events.foldl Event.apply state

/-- All bytes that arrive. -/
def stream (events : List Event) : List UInt8 :=
  events.flatMap Event.piece

/-- The turns of a client that hands over each line when its line feed has arrived, where some bytes
of the first line wait already. -/
def turns (waiting : List UInt8) : List Event → List Turn
  | [] => []
  | .bytes origin piece :: rest =>
    (completed (waiting ++ piece)).map (.line origin) ++
      turns (unterminated (waiting ++ piece)) rest
  | .pause _ :: rest => turns waiting rest
  | .elsewhere change :: rest => .elsewhere change :: turns waiting rest

/-- The last turn, when no more bytes can come: a line that waits is handed over as it is. -/
def lastTurn (origin : Origin) (waiting : List UInt8) : List Turn :=
  if waiting = [] then [] else [.line origin waiting]

/-- No pause comes while the line that waits has grown too long. -/
def Timely (waiting : List UInt8) : List Event → Prop
  | [] => True
  | .bytes _ piece :: rest => Timely (unterminated (waiting ++ piece)) rest
  | .pause _ :: rest => waiting.length ≤ maxUnfinished ∧ Timely waiting rest
  | .elsewhere _ :: rest => Timely waiting rest

/-- Nobody but the client asks for a shutdown. -/
def Undisturbed (events : List Event) : Prop :=
  ∀ change, .elsewhere change ∈ events →
    ∀ s : Service, s.shutdownRequested = false → (change s).shutdownRequested = false

theorem Undisturbed.tail {event : Event} {rest : List Event}
    (undisturbed : Undisturbed (event :: rest)) : Undisturbed rest :=
  fun change member => undisturbed change (List.mem_cons_of_mem event member)

/-- The connection has answered what the conversation has, and is open as long as that is not over;
then the given bytes wait. -/
structure Matches (d : Dialogue) (waiting : List UInt8) (state : Service × Connection) : Prop where
  service : state.1 = d.service
  session : state.2.session = d.session
  sent : state.2.sent = d.answers
  isOpen : state.2.isOpen = !d.isOver
  running : d.isOver = false → d.service.shutdownRequested = false
  waiting : d.isOver = false → state.2.unfinished = waiting

/-- The connection is closed, and has answered what the conversation has. -/
structure EndsLike (d : Dialogue) (state : Service × Connection) : Prop where
  service : state.1 = d.service
  session : state.2.session = d.session
  sent : state.2.sent = d.answers
  closed : state.2.isOpen = false

variable {d : Dialogue} {waiting : List UInt8} {state : Service × Connection}

/-- A closed connection ignores what arrives. -/
theorem EndsLike.ignore (ends : EndsLike d state) (origin : Origin) (arrival : Arrival) :
    step origin state.1 state.2 arrival = state :=
  if_pos (congrArg Bool.not ends.closed)

theorem matches_accepted {s : Service} (running : s.shutdownRequested = false) (name : String) :
    Matches (.opening s name) [] (s, accepted s name) where
  service := rfl
  session := rfl
  sent := rfl
  isOpen := by rw [accepted, running]; rfl
  running _ := running
  waiting _ := rfl

theorem Matches.ongoing (related : Matches d waiting state) (ongoing : d.isOver = false) :
    state.2.isOpen = true :=
  related.isOpen.trans (congrArg Bool.not ongoing)

theorem Matches.endsLike (related : Matches d waiting state) (ended : d.isOver = true) :
    EndsLike d state where
  service := related.service
  session := related.session
  sent := related.sent
  closed := related.isOpen.trans (congrArg Bool.not ended)

/-- After the end nothing waits that could matter. -/
theorem Matches.of_over (related : Matches d waiting state) (ended : d.isOver = true)
    (other : List UInt8) : Matches d other state where
  service := related.service
  session := related.session
  sent := related.sent
  isOpen := related.isOpen
  running := related.running
  waiting ongoing := Bool.noConfusion (ended.symm.trans ongoing)

/-- To answer a line is to execute it in its turn. -/
theorem Matches.answer (related : Matches d waiting state) (ongoing : d.isOver = false)
    (origin : Origin) (line : List UInt8) :
    Matches (d.turn (.line origin line)) [] (answer origin state.1 state.2 line) := by
  have running := related.running ongoing
  rw [Dialogue.turn, if_neg (by rw [ongoing]; exact Bool.false_ne_true), Connection.answer,
    related.service, related.session, related.sent]
  have verdict : (d.answers ++ [(d.service.handle origin d.session (decodeLossy line)).2.2]).any
      Response.closes = (d.service.handle origin d.session (decodeLossy line)).2.2.closes := by
    rw [List.any_append, show d.answers.any Response.closes = false from ongoing, Bool.false_or,
      List.any_cons, List.any_nil, Bool.or_false]
  have kept := d.service.shutdownRequested_handle origin d.session (decodeLossy line)
  constructor
  · rfl
  · rfl
  · rfl
  · simp only [Dialogue.isOver, verdict]
    cases closes : (d.service.handle origin d.session (decodeLossy line)).2.2.closes with
    | true => rfl
    | false => rw [kept closes, running]; rfl
  · intro stays
    rw [Dialogue.isOver, verdict] at stays
    exact (kept stays).trans running
  · exact fun _ => rfl

/-- A closed connection ignores what it receives. -/
theorem Matches.ignore (related : Matches d waiting state) (ended : d.isOver = true)
    (origin : Origin) (segment : List UInt8) :
    Connection.receiveSegment origin state segment = state := by
  rw [Connection.receiveSegment, related.isOpen, ended]
  rfl

/-- A segment that ends in a line feed completes the line that waits. -/
theorem Matches.complete (related : Matches d waiting state) {segment : List UInt8}
    (terminated : isTerminated segment = true) (origin : Origin) :
    Matches (d.turn (.line origin (waiting ++ segment))) []
      (Connection.receiveSegment origin state segment) := by
  cases status : d.isOver with
  | true =>
    rw [related.ignore status, Dialogue.turn_line_of_over status]
    exact related.of_over status []
  | false =>
    have executed := related.answer status origin (waiting ++ segment)
    rw [Connection.receiveSegment, related.isOpen, status, terminated, related.waiting status]
    exact executed

/-- Any other segment makes it longer. -/
theorem Matches.extend (related : Matches d waiting state) {segment : List UInt8}
    (unfinished : isTerminated segment = false) (origin : Origin) :
    Matches d (waiting ++ segment) (Connection.receiveSegment origin state segment) := by
  cases status : d.isOver with
  | true =>
    rw [related.ignore status]
    exact related.of_over status _
  | false =>
    rw [Connection.receiveSegment, related.isOpen, status, unfinished, related.waiting status]
    exact ⟨related.service, related.session, related.sent, by rw [status]; rfl, related.running,
      fun _ => rfl⟩

/-- A piece completes the lines whose line feeds it brings; what is behind the last one waits. The
induction is on the segments of the piece: the first continues the bytes that wait, and behind its
line feed nothing waits. -/
theorem Matches.receive (related : Matches d waiting state) (free : lineFeed ∉ waiting)
    (origin : Origin) (piece : List UInt8) :
    Matches (d.hold ((completed (waiting ++ piece)).map (.line origin)))
      (unterminated (waiting ++ piece))
      ((segments piece).foldl (Connection.receiveSegment origin) state) := by
  induction piece using stream_induction generalizing d waiting state with
  | free piece freePiece =>
    have together : lineFeed ∉ waiting ++ piece := by
      simp [free, freePiece]
    rw [completed_of_free together, unterminated_of_free together, segments_of_free freePiece]
    by_cases nothing : piece = []
    · rw [if_pos nothing, nothing, List.append_nil]
      exact related
    · rw [if_neg nothing]
      exact related.extend (isTerminated_of_free freePiece) origin
  | line head rest freeHead inductionHypothesis =>
    have together : lineFeed ∉ waiting ++ head := by
      simp [free, freeHead]
    have first := related.complete (isTerminated_concat head) origin
    have more := inductionHypothesis first List.not_mem_nil
    rw [← List.append_assoc, completed_append_lineFeed together,
      unterminated_append_lineFeed together, segments_append_lineFeed freeHead, List.append_assoc]
    exact more

theorem step_bytes (origin : Origin) (state : Service × Connection) (piece : List UInt8) :
    step origin state.1 state.2 (.bytes piece) =
      (segments piece).foldl (Connection.receiveSegment origin) state := by
  rw [step]
  split
  next closed =>
    refine (List.foldl_fixed' (fun segment => ?_) _).symm
    rw [Connection.receiveSegment, if_pos closed]
  next => rfl

/-- A pause changes nothing while the line that waits has not grown too long. -/
theorem Matches.pause (related : Matches d waiting state) (room : waiting.length ≤ maxUnfinished)
    (origin : Origin) : step origin state.1 state.2 .pause = state := by
  rw [step]
  split
  next => rfl
  next ongoing =>
    have status : d.isOver = false := by
      simpa [related.isOpen] using ongoing
    have short : ¬ maxUnfinished < state.2.unfinished.length := by
      rw [related.waiting status]
      exact Nat.not_lt.2 room
    rw [rest, if_neg short, related.service, related.running status]
    simp only [Bool.false_eq_true, if_false, ← related.service]

theorem Matches.elsewhere (related : Matches d waiting state) {change : Service → Service}
    (quiet : ∀ s, s.shutdownRequested = false → (change s).shutdownRequested = false) :
    Matches (d.turn (.elsewhere change)) waiting (change state.1, state.2) where
  service := congrArg change related.service
  session := related.session
  sent := related.sent
  isOpen := related.isOpen
  running ongoing := quiet _ (related.running ongoing)
  waiting := related.waiting

/-- Whatever happens, the connection and the conversation go on alike. -/
theorem Matches.follow (related : Matches d waiting state) (free : lineFeed ∉ waiting)
    {events : List Event} (timely : Timely waiting events) (undisturbed : Undisturbed events) :
    Matches (d.hold (turns waiting events)) (unterminated (waiting ++ stream events))
      (follow state events) := by
  induction events generalizing d waiting state with
  | nil =>
    rw [stream, List.flatMap_nil, List.append_nil, unterminated_of_free free]
    exact related
  | cons event rest inductionHypothesis =>
    cases event with
    | bytes origin piece =>
      have received := related.receive free origin piece
      rw [← step_bytes] at received
      have more := inductionHypothesis received (not_mem_unterminated _) timely undisturbed.tail
      rw [← unterminated_append, List.append_assoc] at more
      rw [turns, Dialogue.hold_append]
      exact more
    | pause origin =>
      have more := inductionHypothesis related free timely.2 undisturbed.tail
      rw [← related.pause timely.1 origin] at more
      exact more
    | elsewhere change =>
      have changed := related.elsewhere (undisturbed change List.mem_cons_self)
      exact inductionHypothesis changed free timely undisturbed.tail

/-- When no more bytes can come, the line that waits is answered as it is. -/
theorem Matches.finish (related : Matches d waiting state) (origin : Origin) :
    EndsLike (d.hold (lastTurn origin waiting)) (step origin state.1 state.2 .finish) := by
  cases status : d.isOver with
  | true =>
    have ended := related.endsLike status
    have nothing : d.hold (lastTurn origin waiting) = d := by
      rw [lastTurn]
      split
      · rfl
      · exact Dialogue.turn_line_of_over status origin waiting
    rw [ended.ignore, nothing]
    exact ended
  | false =>
    have answered := related.answer status origin waiting
    rw [step, related.ongoing status, Connection.finish, related.waiting status, lastTurn]
    by_cases nothing : waiting = []
    · rw [if_pos nothing, if_pos nothing]
      exact ⟨related.service, related.session, related.sent, rfl⟩
    · rw [if_neg nothing, if_neg nothing]
      exact ⟨answered.service, answered.session, answered.sent, rfl⟩

/-- The lines handed over are those of the stream that are complete. -/
theorem lines_turns {waiting : List UInt8} (free : lineFeed ∉ waiting) (events : List Event) :
    (turns waiting events).filterMap Turn.line? = completed (waiting ++ stream events) := by
  induction events generalizing waiting with
  | nil =>
    rw [stream, List.flatMap_nil, List.append_nil, completed_of_free free]
    rfl
  | cons event rest inductionHypothesis =>
    cases event with
    | bytes origin piece =>
      have lines : ((completed (waiting ++ piece)).map (Turn.line origin)).filterMap Turn.line? =
          completed (waiting ++ piece) := by
        rw [List.filterMap_map]
        exact List.filterMap_some
      have whole : stream (.bytes origin piece :: rest) = piece ++ stream rest := rfl
      rw [turns, List.filterMap_append, lines, inductionHypothesis (not_mem_unterminated _), whole,
        ← List.append_assoc, ← completed_append]
    | pause origin => exact inductionHypothesis free
    | elsewhere change => exact inductionHypothesis free

/-- The lines handed over, with the last one, are the segments of the stream. -/
theorem lines_turns_lastTurn (events : List Event) (last : Origin) :
    (turns [] events ++ lastTurn last (unterminated (stream events))).filterMap Turn.line? =
      segments (stream events) := by
  have line : (lastTurn last (unterminated (stream events))).filterMap Turn.line? =
      if unterminated (stream events) = [] then [] else [unterminated (stream events)] := by
    rw [lastTurn]
    split <;> rfl
  rw [List.filterMap_append, lines_turns List.not_mem_nil, line, List.nil_append, ← segments_eq]

/-- What is not the client's happens as it happened. -/
theorem changes_turns (waiting : List UInt8) (events : List Event) :
    (turns waiting events).filterMap Turn.change? = events.filterMap Event.change? := by
  induction events generalizing waiting with
  | nil => rfl
  | cons event rest inductionHypothesis =>
    cases event with
    | bytes origin piece =>
      have none : ((completed (waiting ++ piece)).map (Turn.line origin)).filterMap Turn.change? =
          [] := by
        rw [List.filterMap_map]
        exact List.filterMap_eq_nil_iff.2 fun line member => rfl
      rw [turns, List.filterMap_append, none]
      exact inductionHypothesis _
    | pause origin => exact inductionHypothesis waiting
    | elsewhere change =>
      exact congrArg (change :: ·) (inductionHypothesis waiting)

/-- What waits at a pause is part of a line of the stream. -/
theorem timely_of_short {waiting : List UInt8} (free : lineFeed ∉ waiting) {events : List Event}
    (short : ∀ segment ∈ segments (waiting ++ stream events), lineLength segment ≤ maxUnfinished) :
    Timely waiting events := by
  induction events generalizing waiting with
  | nil => trivial
  | cons event rest inductionHypothesis =>
    cases event with
    | bytes origin piece =>
      refine inductionHypothesis (not_mem_unterminated _) fun segment member => ?_
      have whole : stream (.bytes origin piece :: rest) = piece ++ stream rest := rfl
      refine short segment ?_
      rw [whole, ← List.append_assoc, segments_append]
      exact List.mem_append_right _ member
    | pause origin =>
      refine ⟨?_, inductionHypothesis free short⟩
      by_cases nothing : waiting = []
      · rw [nothing]
        exact Nat.zero_le _
      · obtain ⟨segment, member, front⟩ := exists_segment_of_waiting free nothing (stream rest)
        exact Nat.le_trans (length_le_lineLength free front) (short segment member)
    | elsewhere change => exact inductionHypothesis free short

/-- As long as no pause finds a line that has grown too long, the connection ends as the
conversation does in which each line is handed over as a whole. -/
theorem endsLike_of_timely {s : Service} (running : s.shutdownRequested = false) (name : String)
    {events : List Event} (last : Origin) (timely : Timely [] events)
    (undisturbed : Undisturbed events) :
    let followed := follow (s, accepted s name) events
    EndsLike
      ((Dialogue.opening s name).hold
        (turns [] events ++ lastTurn last (unterminated (stream events))))
      (step last followed.1 followed.2 .finish) := by
  have related := (matches_accepted running name).follow List.not_mem_nil timely undisturbed
  rw [Dialogue.hold_append]
  exact related.finish last

/-- A connection whose client sends no line that is too long answers as in a conversation in which
each line is handed over as a whole when its line feed has come, and the last one, if no line feed
ends it, when no more bytes can come. The lines handed over are the segments of the stream, in
order, wherever it is cut and whatever pauses come between. Each is executed at most once, none
after an answer that ends the conversation, and all if there is no such answer.

Proof: the bytes that wait at a pause are at the front of a segment of the stream, so no pause finds
a line that has grown too long, and connection and conversation go on alike with every event. -/
theorem answers_whole_lines {s : Service} (running : s.shutdownRequested = false) (name : String)
    (events : List Event) (last : Origin)
    (short : ∀ segment ∈ segments (stream events), lineLength segment ≤ maxUnfinished)
    (undisturbed : Undisturbed events) :
    let followed := follow (s, accepted s name) events
    let reached := step last followed.1 followed.2 .finish
    let turns := turns [] events ++ lastTurn last (unterminated (stream events))
    let held := (Dialogue.opening s name).hold turns
    turns.filterMap Turn.line? = segments (stream events) ∧
      turns.filterMap Turn.change? = events.filterMap Event.change? ∧
      held.InOrder (segments (stream events)) ∧
      reached.1 = held.service ∧ reached.2.session = held.session ∧
      reached.2.sent = held.answers ∧
      reached.2.output = String.join (held.answers.map Response.text) ∧
      reached.2.isOpen = false := by
  intro followed reached handed held
  have timely : Timely [] events := timely_of_short List.not_mem_nil short
  have ends : EndsLike held reached := endsLike_of_timely running name last timely undisturbed
  have lines : handed.filterMap Turn.line? = segments (stream events) :=
    lines_turns_lastTurn events last
  have changes : handed.filterMap Turn.change? = events.filterMap Event.change? := by
    have kept : (lastTurn last (unterminated (stream events))).filterMap Turn.change? = [] := by
      rw [lastTurn]
      split <;> rfl
    rw [List.filterMap_append, changes_turns, kept, List.append_nil]
  have ordered : held.InOrder (segments (stream events)) :=
    lines ▸ Dialogue.inOrder_hold s name handed
  have output : reached.2.output = String.join (held.answers.map Response.text) := by
    rw [output, ends.sent]
  exact ⟨lines, changes, ordered, ends.service, ends.session, ends.sent, output, ends.closed⟩

/-- Two lines in three pieces: the first is cut in two, and no line feed ends the second. -/
theorem answers_two_lines :
    let service : Service :=
      ⟨.create 4 (.ofHistory (.ofFiles .empty) (.empty 4 4) ()), .inMemory, .everyone, false⟩
    let origin : Origin := ⟨⟨0⟩, 1⟩
    let events : List Event :=
      [.bytes origin "PUT a".toUTF8.toList, .pause origin,
        .elsewhere fun s => { s with log := s.log.work standardOutlets },
        .bytes origin " b\nGET ".toUTF8.toList, .bytes origin "a".toUTF8.toList]
    let followed := follow (service, accepted service "conn-1") events
    let reached := step origin followed.1 followed.2 .finish
    service.shutdownRequested = false ∧
      (∀ segment ∈ segments (stream events), lineLength segment ≤ maxUnfinished) ∧
      Undisturbed events ∧ reached.2.sent = [.ok, .line "b"] := by
  intro service origin events followed reached
  have running : service.shutdownRequested = false := rfl
  have short : ∀ segment ∈ segments (stream events), lineLength segment ≤ maxUnfinished := by
    decide +kernel
  have undisturbed : Undisturbed events := by
    intro change member s quiet
    have working : change = fun s => { s with log := s.log.work standardOutlets } := by
      simpa [events] using member
    rw [working]
    exact quiet
  have answered := answers_whole_lines running "conn-1" events origin short undisturbed
  refine ⟨running, short, undisturbed, answered.2.2.2.2.2.1.trans ?_⟩
  decide +kernel

end Connection

end KeyValueService
