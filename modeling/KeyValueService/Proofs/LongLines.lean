import KeyValueService.Proofs.ConnectionStream
import KeyValueService.Proofs.RequestReading

/-!
# Lines that grow too long

A connection looks at the length of a line only in a pause, and only while the line waits for its
line feed. So a line of any length is executed if no pause comes while too much of it waits, and
otherwise the first such pause (`FirstLatePause`) ends the connection: what waits is never executed,
and from then on only others change the service.
-/

namespace KeyValueService

open Bytes

namespace Bytes

/-- Bytes below `0x80` are one character each. -/
theorem decodeLossy_of_ascii {bytes : List UInt8} (ascii : ∀ b ∈ bytes, b < 0x80) :
    decodeLossy bytes = bytes.map fun b => Char.ofNat b.toNat := by
  induction bytes with
  | nil => rw [decodeLossy, List.map_nil]
  | cons b rest inductionHypothesis =>
    obtain ⟨low, others⟩ := List.forall_mem_cons.1 ascii
    have leads : lead? b = some ⟨b.toNat, 0, 0x80, 0xbf⟩ := if_pos low
    rw [decodeLossy, leads, List.map_cons, ← inductionHypothesis others]
    rfl

end Bytes

namespace Connection

/-- The first pause that finds a line that has grown too long, between what happens before and
after it. -/
structure FirstLatePause (waiting : List UInt8) (events before : List Event) (origin : Origin)
    (after : List Event) : Prop where
  cut : events = before ++ .pause origin :: after
  timely : Timely waiting before
  grown : maxUnfinished < (unterminated (waiting ++ stream before)).length

/-- An earlier event leaves its bytes to what comes after it. -/
theorem FirstLatePause.cons {waiting : List UInt8} {events before after : List Event}
    {origin : Origin} (event : Event)
    (late : FirstLatePause (unterminated (waiting ++ event.piece)) events before origin after)
    (timely : Timely waiting (event :: before)) :
    FirstLatePause waiting (event :: events) (event :: before) origin after where
  cut := congrArg (event :: ·) late.cut
  timely := timely
  grown := by
    have whole : stream (event :: before) = event.piece ++ stream before := rfl
    rw [whole, ← List.append_assoc, unterminated_append]
    exact late.grown

/-- A first late pause comes, or none does. The induction is on the events, with the bytes that wait
when each of them comes. -/
theorem timely_or_late {waiting : List UInt8} (free : lineFeed ∉ waiting) (events : List Event) :
    Timely waiting events ∨
      ∃ before origin after, FirstLatePause waiting events before origin after := by
  induction events generalizing waiting with
  | nil => exact .inl trivial
  | cons event rest inductionHypothesis =>
    have unchanged : unterminated (waiting ++ []) = waiting := by
      rw [List.append_nil, unterminated_of_free free]
    cases event with
    | bytes origin piece =>
      refine (inductionHypothesis (not_mem_unterminated (waiting ++ piece))).imp id ?_
      rintro ⟨before, pausing, after, late⟩
      exact ⟨_, pausing, after, late.cons (.bytes origin piece) late.timely⟩
    | pause origin =>
      rcases Nat.lt_or_ge maxUnfinished waiting.length with grown | room
      · refine .inr ⟨[], origin, rest, rfl, trivial, ?_⟩
        rw [stream, List.flatMap_nil, unchanged]
        exact grown
      · refine (inductionHypothesis free).imp (fun timely => ⟨room, timely⟩) ?_
        rintro ⟨before, pausing, after, late⟩
        rw [← unchanged] at late
        have timely : Timely waiting (.pause origin :: before) := ⟨room, unchanged ▸ late.timely⟩
        exact ⟨_, pausing, after, late.cons (.pause origin) timely⟩
    | elsewhere change =>
      refine (inductionHypothesis free).imp id ?_
      rintro ⟨before, pausing, after, late⟩
      rw [← unchanged] at late
      exact ⟨_, pausing, after, late.cons (.elsewhere change) (unchanged ▸ late.timely)⟩

end Connection

/-- A conversation that ends with the remark that a line has grown too long, unless it is over. -/
def Dialogue.cutOff (d : Dialogue) : Dialogue :=
  if d.isOver then d else { d with answers := d.answers ++ [Connection.tooLong] }

namespace Connection

variable {d : Dialogue} {waiting : List UInt8} {state : Service × Connection}

/-- A closed connection answers nothing more, and only others change the service. -/
theorem EndsLike.follow (ends : EndsLike d state) (events : List Event) :
    EndsLike (d.hold ((events.filterMap Event.change?).map .elsewhere)) (follow state events) := by
  induction events generalizing d state with
  | nil => exact ends
  | cons event rest inductionHypothesis =>
    cases event with
    | bytes origin piece =>
      rw [Connection.follow, List.foldl_cons, Event.apply, ends.ignore]
      exact inductionHypothesis ends
    | pause origin =>
      rw [Connection.follow, List.foldl_cons, Event.apply, ends.ignore]
      exact inductionHypothesis ends
    | elsewhere change =>
      have changed : EndsLike (d.turn (.elsewhere change)) (change state.1, state.2) :=
        ⟨congrArg change ends.service, ends.session, ends.sent, ends.closed⟩
      exact inductionHypothesis changed

/-- A late pause closes the connection, and nothing is executed. -/
theorem Matches.latePause (related : Matches d waiting state)
    (grown : maxUnfinished < waiting.length) (origin : Origin) :
    EndsLike d.cutOff (step origin state.1 state.2 .pause) := by
  cases status : d.isOver with
  | true =>
    have ended := related.endsLike status
    rw [ended.ignore, Dialogue.cutOff, if_pos status]
    exact ended
  | false =>
    have long : maxUnfinished < state.2.unfinished.length := by
      rw [related.waiting status]
      exact grown
    rw [step, related.ongoing status, rest, if_pos long, Dialogue.cutOff, status]
    exact ⟨related.service, related.session, congrArg (· ++ [tooLong]) related.sent, rfl⟩

/-- The first late pause ends the connection as it ends a conversation over the lines that are
complete by then. -/
theorem endsLike_of_latePause {s : Service} (running : s.shutdownRequested = false) (name : String)
    {events before after : List Event} {origin : Origin}
    (late : FirstLatePause [] events before origin after) (undisturbed : Undisturbed events) :
    EndsLike
      (((Dialogue.opening s name).hold (turns [] before)).cutOff.hold
        ((after.filterMap Event.change?).map .elsewhere))
      (follow (s, accepted s name) events) := by
  have quiet : Undisturbed before := fun change member =>
    undisturbed change (late.cut ▸ List.mem_append_left _ member)
  have related :=
    (matches_accepted running name).follow List.not_mem_nil late.timely quiet
  have parts : follow (s, accepted s name) events =
      follow (step origin (follow (s, accepted s name) before).1
        (follow (s, accepted s name) before).2 .pause) after := by
    simp only [late.cut, follow, List.foldl_append, List.foldl_cons, Event.apply]
  rw [parts]
  exact (related.latePause late.grown origin).follow after

/-- What becomes of the lines of a client, however long they are. If no pause finds a line that has
grown too long, every line is handed over as a whole, in order, as long as no answer ends the
conversation. Otherwise that holds of the lines that are complete before the first late pause; the
pause ends the connection with a remark, and from then on only others change the service.

Proof: connection and conversation go on alike up to the first late pause, and a closed connection
ignores what comes later. -/
theorem long_lines_cut_off {s : Service} (running : s.shutdownRequested = false) (name : String)
    (events : List Event) (last : Origin) (undisturbed : Undisturbed events) :
    let followed := follow (s, accepted s name) events
    let reached := step last followed.1 followed.2 .finish
    let opening := Dialogue.opening s name
    (Timely [] events ∨ ∃ before origin after, FirstLatePause [] events before origin after) ∧
      (Timely [] events →
        let turns := turns [] events ++ lastTurn last (unterminated (stream events))
        turns.filterMap Turn.line? = segments (stream events) ∧
          (opening.hold turns).InOrder (segments (stream events)) ∧
          EndsLike (opening.hold turns) reached) ∧
      ∀ before origin after, FirstLatePause [] events before origin after →
        let turns := turns [] before
        turns.filterMap Turn.line? = completed (stream before) ∧
          (opening.hold turns).InOrder (completed (stream before)) ∧
          EndsLike ((opening.hold turns).cutOff.hold
            ((after.filterMap Event.change?).map .elsewhere)) reached := by
  intro followed reached opening
  refine ⟨timely_or_late List.not_mem_nil events, ?_, ?_⟩
  · intro timely handed
    have lines : handed.filterMap Turn.line? = segments (stream events) :=
      lines_turns_lastTurn events last
    have ordered := lines ▸ Dialogue.inOrder_hold s name handed
    exact ⟨lines, ordered, endsLike_of_timely running name last timely undisturbed⟩
  · intro before origin after late handed
    have lines : handed.filterMap Turn.line? = completed (stream before) := by
      rw [lines_turns List.not_mem_nil, List.nil_append]
    have ordered := lines ▸ Dialogue.inOrder_hold s name handed
    have ends := endsLike_of_latePause running name late undisturbed
    have finished : reached = followed := ends.ignore last .finish
    exact ⟨lines, ordered, finished ▸ ends⟩

/-- A client stores a value and then sends too many letters, with a pause before the line feed. -/
theorem letters_cut_off :
    let service : Service :=
      ⟨.create 4 (.ofHistory (.ofFiles .empty) (.empty 4 4) ()), .inMemory, .everyone, false⟩
    let origin : Origin := ⟨⟨0⟩, 1⟩
    let letters : List UInt8 := List.replicate 65537 120
    let events : List Event :=
      [.bytes origin ("PUT a b".toUTF8.toList ++ lineFeed :: letters), .pause origin,
        .bytes origin (lineFeed :: "DELETE a\n".toUTF8.toList)]
    let followed := follow (service, accepted service "conn-1") events
    let reached := step origin followed.1 followed.2 .finish
    service.shutdownRequested = false ∧ Undisturbed events ∧ reached.2.sent = [.ok, tooLong] ∧
      reached.1.store.get? "a" = some "b" := by
  intro service origin letters events followed reached
  have freeLetters : lineFeed ∉ letters := fun member =>
    absurd (List.eq_of_mem_replicate member) (by decide)
  have grown : maxUnfinished < letters.length := by
    rw [List.length_replicate]
    decide
  clear_value letters
  have running : service.shutdownRequested = false := rfl
  have undisturbed : Undisturbed events := by
    intro change member
    simp [events] at member
  have freeHead : lineFeed ∉ "PUT a b".toUTF8.toList := by decide +kernel
  have late : FirstLatePause [] events (events.take 1) origin (events.drop 2) := by
    refine ⟨rfl, trivial, ?_⟩
    have waits : unterminated ("PUT a b".toUTF8.toList ++ lineFeed :: letters) = letters := by
      rw [unterminated_append_lineFeed freeHead, unterminated_of_free freeLetters]
    rw [← waits] at grown
    simpa [events, stream, Event.piece] using grown
  have handed : turns [] (events.take 1) =
      [.line origin ("PUT a b".toUTF8.toList ++ [lineFeed])] := by
    have line : completed ("PUT a b".toUTF8.toList ++ lineFeed :: letters) =
        ["PUT a b".toUTF8.toList ++ [lineFeed]] := by
      rw [completed_append_lineFeed freeHead, completed_of_free freeLetters]
    exact congrArg (fun lines => lines.map (Turn.line origin) ++ []) line
  have ends :=
    ((long_lines_cut_off running "conn-1" events origin undisturbed).2.2 _ _ _ late).2.2
  have others : ((events.drop 2).filterMap Event.change?).map Turn.elsewhere = [] := rfl
  rw [handed, others] at ends
  have answers := ends.sent.trans (by decide +kernel : _ = [.ok, tooLong])
  have value := congrArg (fun s => s.store.get? "a") ends.service
  exact ⟨running, undisturbed, answers, value.trans (by decide +kernel)⟩

/-- A line without line feed that gives the key `k` a value of `n` letters. -/
def letterLine (n : Nat) : List UInt8 :=
  "PUT k ".toUTF8.toList ++ List.replicate n 120

/-- That value. -/
def letterValue (n : Nat) : String :=
  String.ofList (List.replicate n 'x')

theorem length_letterLine (n : Nat) : (letterLine n).length = 6 + n := by
  have front : "PUT k ".toUTF8.toList.length = 6 := by
    decide +kernel
  rw [letterLine, List.length_append, List.length_replicate, front]

theorem ascii_letterLine (n : Nat) : ∀ b ∈ letterLine n, b < 0x80 := by
  have front : "PUT k ".toUTF8.toList.all (· < 0x80) = true := by
    decide +kernel
  intro b member
  rcases List.mem_append.1 member with first | letter
  · simpa using List.all_eq_true.1 front b first
  · rw [List.eq_of_mem_replicate letter]
    decide

theorem not_mem_letterLine (n : Nat) : lineFeed ∉ letterLine n := by
  intro member
  rcases List.mem_append.1 member with front | letter
  · revert front
    decide +kernel
  · exact absurd (List.eq_of_mem_replicate letter) (by decide)

theorem read_letterLine {n : Nat} (some : 0 < n) :
    Request.read (decodeLossy (letterLine n ++ [lineFeed])) = .ok (.put "k" (letterValue n)) := by
  have ascii : ∀ b ∈ letterLine n ++ [lineFeed], b < 0x80 := by
    rw [List.forall_mem_append, List.forall_mem_singleton]
    exact ⟨ascii_letterLine n, by decide⟩
  have front : ("PUT k ".toUTF8.toList.map fun b => Char.ofNat b.toNat) = "PUT k ".toList := by
    decide +kernel
  have feed : Char.ofNat lineFeed.toNat = '\n' := by decide
  have text : decodeLossy (letterLine n ++ [lineFeed]) =
      [] ++ ("PUT".toList ++ ' ' :: ([] ++ ("k".toList ++ ' ' :: (letterValue n).toList))) ++
        ['\n'] := by
    rw [decodeLossy_of_ascii ascii, letterLine, List.map_append, List.map_append, front,
      List.map_replicate, letterValue, String.toList_ofList]
    simp [feed]
  have isValue : Request.IsValue (letterValue n) := by
    rw [Request.isValue_iff, letterValue, ne_eq, String.ofList_eq_empty_iff, String.toList_ofList,
      List.replicate_eq_nil_iff]
    refine ⟨Nat.ne_of_gt some, fun c last => ?_⟩
    rw [List.eq_of_mem_replicate (List.mem_of_getLast? last)]
    decide
  have isWord : Request.IsWord "k" := by
    refine ⟨by decide, fun c member => ?_⟩
    rw [List.mem_singleton.1 member]
    decide
  have ended : ∀ c ∈ ['\n'], Request.isLineEnd c = true :=
    List.forall_mem_singleton.2 (by decide)
  have none : Request.Blanks [] := fun c member => nomatch member
  rw [text]
  exact Request.read_put_iff.2 <| .intro none (Request.solid_name .put) (Request.read?_name .put)
    (by decide) none isWord (by decide) isValue ended

end Connection

/-- Without a file nothing can go wrong when a key is given a value. -/
theorem Service.handle_put_inMemory {s : Service} (unkept : s.store.path = none) {session : Session}
    (authenticated : session.isAuthenticated = true) {line : List Char} {key value : String}
    (read : Request.read line = .ok (.put key value)) (origin : Origin) :
    (s.handle origin session line).2.2 = .ok ∧
      (s.handle origin session line).1.store.get? key = some value := by
  have inserted : (s.store.table.insert key value).find? key = some value := by
    rw [Table.find?_insert, if_pos rfl]
  have saved : Store.save s.files s.store.path (s.store.table.insert key value) =
      (s.files, .ok ()) := by
    rw [unkept, Store.save]
  have logged := (s.withStore s.files { s.store with table := s.store.table.insert key value })
    |>.onlyLogged_logEvent origin .info session.name (Verb.put.name ++ " " ++ key)
  rw [handle, read]
  dsimp only
  rw [execute, authenticated, Bool.true_or, if_pos rfl, carryOut, put, change, Store.put,
    Store.putBy, Store.commitBy, saved]
  exact ⟨rfl, (congrArg (·.get? key) logged.store).trans inserted⟩

namespace Connection

/-- A line that is too long is executed if it comes in one piece. -/
theorem stores_letters {s : Service} (running : s.shutdownRequested = false)
    (everyone : s.gate.isRequired = false) (unkept : s.store.path = none) (name : String)
    (origin : Origin) {n : Nat} (long : maxUnfinished < 6 + n) :
    let line := letterLine n ++ [lineFeed]
    let reached := follow (s, accepted s name) [.bytes origin line]
    maxUnfinished < lineLength line ∧ reached.2.sent = [.ok] ∧ reached.2.isOpen = true ∧
      reached.1.store.get? "k" = some (letterValue n) := by
  intro line reached
  have free : lineFeed ∉ letterLine n := not_mem_letterLine n
  have grown : maxUnfinished < lineLength line := by
    rw [← length_letterLine] at long
    exact Nat.lt_of_lt_of_le long (length_le_lineLength free (List.prefix_append _ _))
  have letters : 0 < n := by
    rw [maxUnfinished] at long
    omega
  have authenticated : (s.openSession name).isAuthenticated = true := by
    rw [Service.openSession, everyone]
    rfl
  obtain ⟨answered, stored⟩ :=
    Service.handle_put_inMemory unkept authenticated (read_letterLine letters) origin
  have related :=
    (matches_accepted running name).complete (isTerminated_concat (letterLine n)) origin
  have one : receiveSegment origin (s, accepted s name) line = reached := by
    have cut : segments line = [line] := segments_append_lineFeed free []
    change _ = step origin s (accepted s name) (.bytes line)
    rw [step_bytes origin (s, accepted s name), cut, List.foldl_cons, List.foldl_nil]
  rw [one, List.nil_append] at related
  have sent : reached.2.sent = [.ok] := related.sent.trans (congrArg (fun r => [r]) answered)
  refine ⟨grown, sent, ?_, ?_⟩
  · rw [related.isOpen, Dialogue.isOver, ← related.sent, sent]
    rfl
  · rw [related.service]
    exact stored

/-- So is one of 65537 bytes. -/
theorem long_line_executed :
    let service : Service :=
      ⟨.create 4 (.ofHistory (.ofFiles .empty) (.empty 4 4) ()), .inMemory, .everyone, false⟩
    let origin : Origin := ⟨⟨0⟩, 1⟩
    let line := letterLine 65531 ++ [lineFeed]
    let reached := follow (service, accepted service "conn-1") [.bytes origin line]
    maxUnfinished < lineLength line ∧ reached.2.sent = [.ok] ∧ reached.2.isOpen = true ∧
      reached.1.store.get? "k" = some (letterValue 65531) := by
  intro service origin
  exact stores_letters rfl rfl rfl "conn-1" origin (by decide)

end Connection

end KeyValueService
