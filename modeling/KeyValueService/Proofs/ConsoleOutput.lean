import KeyValueService.Sink.Console
import Mathlib.Data.List.Basic

/-!
# What a console writes

A console is called any number of times over a device that may take a part of what it is offered, be
interrupted, refuse, or crash. The calls are logged: how each is answered, and what reaches the device
in it. Main statement: `console_output_exact`. What has reached the device is what the log says, call by
call. Each record contributes its line in the style in force, or only a part from the beginning of it
where writing fails or crashes, and after the first crash there are only refusals.

Nothing of a call that fails is left behind: the calls after it are answered as if it had not been made,
by a device in the state that it left.
-/

namespace KeyValueService

namespace Stream

variable {σ : Type}

/-- The stream as it is if other bytes have reached its device before. -/
def after (before : List UInt8) (s : Stream σ) : Stream σ :=
  ⟨s.device, before ++ s.received⟩

theorem extend_after (before : List UInt8) (s : Stream σ) (device : σ) (bytes : List UInt8) :
    (s.after before).extend device bytes = (s.extend device bytes).after before := by
  rw [extend, extend, after, after, List.append_assoc]

/-- What a device is offered, and what comes of it, does not depend on what has reached it before. -/
theorem writeAll_after (d : Device σ) (before : List UInt8) (s : Stream σ) (bytes : List UInt8) :
    (s.after before).writeAll d bytes =
      ((s.writeAll d bytes).1.after before, (s.writeAll d bytes).2) := by
  have same : ∀ s : Stream σ, (s.after before).device = s.device := fun _ => rfl
  fun_induction writeAll d s bytes with
  | case1 s => rw [writeAll_eq, if_pos rfl]
  | case2 s bytes something device cause offered
  | case3 s bytes something device count offered
  | case5 s bytes something device offered =>
    rw [writeAll_eq, if_neg something, same, offered, ← extend_after]
  | case4 s bytes something device offered inductionHypothesis =>
    rw [writeAll_eq, if_neg something, same, offered, ← inductionHypothesis, ← extend_after]
  | case6 s bytes something device count offered more =>
    rw [writeAll_eq, if_neg something, same, offered, ← extend_after]
    exact if_pos more
  | case7 s bytes something device count offered within inductionHypothesis =>
    rw [writeAll_eq, if_neg something, same, offered, ← inductionHypothesis, ← extend_after]
    exact if_neg within

theorem writePieces_after (d : Device σ) (before : List UInt8) (s : Stream σ)
    (pieces : List (List UInt8)) :
    (s.after before).writePieces d pieces =
      ((s.writePieces d pieces).1.after before, (s.writePieces d pieces).2) := by
  induction pieces generalizing s with
  | nil => rfl
  | cons piece rest inductionHypothesis =>
    rw [writePieces, writePieces, writeAll_after]
    rcases s.writeAll d piece with ⟨s', ⟨⟩ | e | ⟨⟩⟩
    · exact inductionHypothesis s'
    · rfl
    · rfl

/-- Pieces that are written one after the other reach the device as if they were one. -/
theorem received_writePieces (d : Device σ) (s : Stream σ) (pieces : List (List UInt8)) :
    ∃ part, (s.writePieces d pieces).1.received = s.received ++ part ∧
      Reached pieces.flatten (s.writePieces d pieces).2 part := by
  induction pieces generalizing s with
  | nil => exact ⟨[], (List.append_nil _).symm, .completed⟩
  | cons piece rest inductionHypothesis =>
    obtain ⟨part, received, reached⟩ := s.received_writeAll d piece
    rw [writePieces, List.flatten_cons]
    rcases wrote : s.writeAll d piece with ⟨s', ⟨⟩ | e | ⟨⟩⟩
    all_goals
      rw [wrote] at received reached
      dsimp only at received reached ⊢
    · cases reached
      obtain ⟨part', received', reached'⟩ := inductionHypothesis s'
      refine ⟨piece ++ part', ?_, reached'.behind piece⟩
      rw [received', received, List.append_assoc]
    · exact ⟨part, received, reached.early (by simp) _⟩
    · exact ⟨part, received, reached.early (by simp) _⟩

end Stream

namespace Console

variable {σ : Type}

/-- The bytes of a record's line in a style. -/
def line (style : ConsoleStyle) (r : Record) : List UInt8 :=
  (style.render r ++ "\n").toUTF8.data.toList

/-- What a console may be called for. -/
inductive Call
  | consume (r : Record)
  | setStyle (style : ConsoleStyle)
  | currentStyle
  | flush

/-- How a call is answered: by the way it ends, or by the style that was asked for. -/
inductive Answer
  | ended (outcome : Outcome)
  | told (style : ConsoleStyle)
  deriving DecidableEq

/-- The answer to a call that does not reach the device. -/
def Answer.ofExcept : Except SinkError Unit → Answer
  | .ok () => .ended .completed
  | .error e => .ended (.failed e)

namespace Call

/-- Calls a console once. -/
def apply (d : Device σ) (c : Console) (s : Stream σ) : Call → Console × Stream σ × Answer
  | consume r =>
    let (c, s, outcome) := c.consume d s r
    (c, s, .ended outcome)
  | setStyle style =>
    let (c, result) := c.setStyle style
    (c, s, .ofExcept result)
  | currentStyle =>
    match c.currentStyle with
    | .ok style => (c, s, .told style)
    | .error e => (c, s, .ended (.failed e))
  | flush =>
    let (c, s, outcome) := c.flush d s
    (c, s, .ended outcome)

end Call

/-- A call, the state of the device when it came, how it was answered, and the bytes that reached the
device in it. -/
structure Event (σ : Type) where
  call : Call
  device : σ
  answer : Answer
  piece : List UInt8

/-- Calls a console several times, one after the other, and logs the calls. -/
def run (d : Device σ) (c : Console) (s : Stream σ) :
    List Call → Console × Stream σ × List (Event σ)
  | [] => (c, s, [])
  | call :: rest =>
    let (c', s', answer) := call.apply d c s
    let (c'', s'', log) := run d c' s' rest
    (c'', s'', ⟨call, s.device, answer, s'.received.drop s.received.length⟩ :: log)

/-- The style in force after calls that all have been answered: the last one that was set. -/
def styleAfter (style : ConsoleStyle) : List Call → ConsoleStyle
  | [] => style
  | .setStyle style' :: rest => styleAfter style' rest
  | _ :: rest => styleAfter style rest

/-- How a console with a style in force answers a call, and what its device gets of it. A flush ends as
that of the device does in the state it is in. -/
inductive Answers (d : Device σ) (device : σ) (style : ConsoleStyle) :
    Call → Answer → List UInt8 → Prop
  | consume {r : Record} {outcome : Outcome} {part : List UInt8}
      (reached : Stream.Reached (line style r) outcome part) :
      Answers d device style (.consume r) (.ended outcome) part
  | setStyle (style' : ConsoleStyle) :
      Answers d device style (.setStyle style') (.ended .completed) []
  | currentStyle : Answers d device style .currentStyle (.told style) []
  | flush : Answers d device style .flush (.ended (d.flush device).2) []

/-! ## One call -/

/-- A poisoned console refuses every call, and nothing changes. -/
theorem apply_of_poisoned (d : Device σ) {c : Console} (poisoned : c.isPoisoned = true) (s : Stream σ)
    (call : Call) : call.apply d c s = (c, s, .ended (.failed Console.poisoned)) := by
  cases call <;>
    simp [Call.apply, Console.consume, Console.setStyle, Console.currentStyle, Console.flush, poisoned,
      Answer.ofExcept]

theorem flatten_line (style : ConsoleStyle) (r : Record) :
    [(style.render r).toUTF8.data.toList, "\n".toUTF8.data.toList].flatten = line style r := by
  simp [line]

theorem after_of_sound {c : Console} (sound : c.isPoisoned = false) (outcome : Outcome) :
    c.after outcome = ⟨c.style, decide (Answer.ended outcome = .ended .crashed)⟩ := by
  obtain ⟨style, isPoisoned⟩ := c
  cases sound
  cases outcome <;> rfl

/-- One that is not poisoned answers. It is poisoned by a crash and by nothing else, and its style is
changed by a call for that and by no other. -/
theorem apply_of_sound (d : Device σ) {c : Console} (sound : c.isPoisoned = false) (s : Stream σ)
    (call : Call) :
    (call.apply d c s).1 =
        ⟨styleAfter c.style [call], decide ((call.apply d c s).2.2 = .ended .crashed)⟩ ∧
      ∃ piece, (call.apply d c s).2.1.received = s.received ++ piece ∧
        Answers d s.device c.style call (call.apply d c s).2.2 piece := by
  have nothing : s.received = s.received ++ [] := (List.append_nil _).symm
  cases call with
  | consume r =>
    obtain ⟨part, received, reached⟩ := s.received_writePieces d
      [(c.style.render r).toUTF8.data.toList, "\n".toUTF8.data.toList]
    rw [flatten_line] at reached
    have consumed : c.consume d s r = _ := if_neg (by simp [sound])
    rw [Call.apply, consumed]
    exact ⟨after_of_sound sound _, part, received, .consume reached⟩
  | setStyle style =>
    have set : c.setStyle style = ({ c with style }, .ok ()) := if_neg (by simp [sound])
    rw [Call.apply, set, sound]
    exact ⟨rfl, [], nothing, .setStyle style⟩
  | currentStyle =>
    have current : c.currentStyle = .ok c.style := if_neg (by simp [sound])
    rw [Call.apply, current]
    obtain ⟨style, isPoisoned⟩ := c
    cases sound
    exact ⟨rfl, [], nothing, .currentStyle⟩
  | flush =>
    have flushed : c.flush d s = _ := if_neg (by simp [sound])
    rw [Call.apply, flushed]
    exact ⟨after_of_sound sound _, [], rfl, .flush⟩

/-- A call that fails changes nothing about the console. -/
theorem apply_of_failed {d : Device σ} {c : Console} {s : Stream σ} {call : Call} {e : SinkError}
    (failed : (call.apply d c s).2.2 = .ended (.failed e)) : (call.apply d c s).1 = c := by
  rcases poisoned : c.isPoisoned with _ | _
  · obtain ⟨now, piece, -, answers⟩ := apply_of_sound d poisoned s call
    have sameStyle : styleAfter c.style [call] = c.style := by
      cases call with
      | setStyle style =>
        rw [failed] at answers
        cases answers
      | consume r => rfl
      | currentStyle => rfl
      | flush => rfl
    rw [now, failed, sameStyle]
    obtain ⟨style, isPoisoned⟩ := c
    cases poisoned
    rfl
  · rw [apply_of_poisoned d poisoned]

/-- Calls do not depend on what has reached the device before. -/
theorem apply_after (d : Device σ) (c : Console) (before : List UInt8) (s : Stream σ) (call : Call) :
    call.apply d c (s.after before) = ((call.apply d c s).1, (call.apply d c s).2.1.after before,
      (call.apply d c s).2.2) := by
  rcases poisoned : c.isPoisoned with _ | _
  · cases call with
    | consume r =>
      simp only [Call.apply, Console.consume, poisoned, Bool.false_eq_true, if_false,
        Stream.writePieces_after]
    | setStyle style => rfl
    | currentStyle =>
      rw [Call.apply, Call.apply]
      cases c.currentStyle <;> rfl
    | flush =>
      simp only [Call.apply, Console.flush, poisoned, Bool.false_eq_true, if_false, Stream.flush,
        Stream.after, Stream.extend, List.append_assoc]
  · rw [apply_of_poisoned d poisoned, apply_of_poisoned d poisoned]

/-! ## All calls -/

theorem run_after (d : Device σ) (c : Console) (before : List UInt8) (s : Stream σ)
    (calls : List Call) :
    run d c (s.after before) calls = ((run d c s calls).1, (run d c s calls).2.1.after before,
      (run d c s calls).2.2) := by
  induction calls generalizing c s with
  | nil => rfl
  | cons call rest inductionHypothesis =>
    have piece : ∀ s' : Stream σ, (s'.after before).received.drop (s.after before).received.length =
        s'.received.drop s.received.length := by
      intro s'
      rw [Stream.after, Stream.after, List.length_append, List.drop_length_add_append]
    rw [run, run, apply_after]
    dsimp only
    rw [inductionHypothesis, piece]
    rfl

theorem run_append (d : Device σ) (c : Console) (s : Stream σ) (before later : List Call) :
    (run d c s (before ++ later)).2.2 = (run d c s before).2.2 ++
      (run d (run d c s before).1 (run d c s before).2.1 later).2.2 := by
  induction before generalizing c s with
  | nil => rfl
  | cons call rest inductionHypothesis =>
    rw [List.cons_append, run, run]
    dsimp only
    rw [inductionHypothesis, List.cons_append]

theorem map_call_run (d : Device σ) (c : Console) (s : Stream σ) (calls : List Call) :
    (run d c s calls).2.2.map Event.call = calls := by
  induction calls generalizing c s with
  | nil => rfl
  | cons call rest inductionHypothesis =>
    rw [run, List.map_cons, inductionHypothesis]

/-- A poisoned console refuses all calls, and nothing changes. -/
theorem run_of_poisoned (d : Device σ) {c : Console} (poisoned : c.isPoisoned = true) (s : Stream σ)
    (calls : List Call) :
    run d c s calls =
      (c, s, calls.map fun call => ⟨call, s.device, .ended (.failed Console.poisoned), []⟩) := by
  induction calls with
  | nil => rfl
  | cons call rest inductionHypothesis =>
    rw [run, apply_of_poisoned d poisoned]
    dsimp only
    rw [inductionHypothesis, List.drop_length, List.map_cons]

theorem styleAfter_cons (style : ConsoleStyle) (call : Call) (rest : List Call) :
    styleAfter style (call :: rest) = styleAfter (styleAfter style [call]) rest := by
  cases call <;> rfl

/-- There is a crash in a log. -/
def Crashed (log : List (Event σ)) : Prop :=
  ∃ event ∈ log, event.answer = .ended .crashed

/-- Each call in a log is answered as it should be after those before it: in the style in force if none
of them has crashed, and by a refusal, with nothing for the device, if one has. -/
def Kept (d : Device σ) (style : ConsoleStyle) (log : List (Event σ)) : Prop :=
  ∀ before event later, log = before ++ event :: later →
    (¬Crashed before →
      Answers d event.device (styleAfter style (before.map Event.call)) event.call event.answer
        event.piece) ∧
    (Crashed before → event.answer = .ended (.failed poisoned) ∧ event.piece = [])

theorem kept_nil (d : Device σ) (style : ConsoleStyle) : Kept d style [] := by
  intro before event later split
  simp at split

/-- A log without a crash at its beginning goes on in the style that is then in force. -/
theorem Kept.cons {d : Device σ} {style : ConsoleStyle} {first : Event σ} {log : List (Event σ)}
    (answers : Answers d first.device style first.call first.answer first.piece)
    (sound : first.answer ≠ .ended .crashed) (kept : Kept d (styleAfter style [first.call]) log) :
    Kept d style (first :: log) := by
  intro before event later split
  cases before with
  | nil =>
    cases split
    refine ⟨fun _ => answers, ?_⟩
    rintro ⟨event, member, -⟩
    cases member
  | cons other before =>
    obtain ⟨rfl, behind⟩ := List.cons.inj split
    have crashed : Crashed (first :: before) ↔ Crashed before := by
      simp [Crashed, sound]
    rw [crashed, List.map_cons, styleAfter_cons]
    exact kept before event later behind

/-- A log that begins with a crash has only refusals behind it. -/
theorem Kept.of_crash {d : Device σ} {style : ConsoleStyle} {first : Event σ} {log : List (Event σ)}
    (answers : Answers d first.device style first.call first.answer first.piece)
    (crash : first.answer = .ended .crashed)
    (refused : ∀ event ∈ log, event.answer = .ended (.failed poisoned) ∧ event.piece = []) :
    Kept d style (first :: log) := by
  intro before event later split
  cases before with
  | nil =>
    cases split
    refine ⟨fun _ => answers, ?_⟩
    rintro ⟨event, member, -⟩
    cases member
  | cons other before =>
    obtain ⟨rfl, rfl⟩ := List.cons.inj split
    have crashed : Crashed (first :: before) := ⟨first, List.mem_cons_self, crash⟩
    exact ⟨fun none => absurd crashed none, fun _ => refused event (by simp)⟩

/-- All calls of a console that is not poisoned, by induction on them. -/
theorem run_of_sound (d : Device σ) {c : Console} (sound : c.isPoisoned = false) (s : Stream σ)
    (calls : List Call) :
    (run d c s calls).2.1.received = s.received ++ (run d c s calls).2.2.flatMap Event.piece ∧
      Kept d c.style (run d c s calls).2.2 := by
  induction calls generalizing c s with
  | nil => exact ⟨(List.append_nil _).symm, kept_nil d c.style⟩
  | cons call rest inductionHypothesis =>
    obtain ⟨now, piece, received, answers⟩ := apply_of_sound d sound s call
    rcases applied : call.apply d c s with ⟨c', s', answer⟩
    rw [applied] at now received answers
    dsimp only at now received answers
    have own : s'.received.drop s.received.length = piece := by
      rw [received, List.drop_left]
    rw [run, applied]
    dsimp only
    rw [own, List.flatMap_cons]
    by_cases crash : answer = .ended .crashed
    · have poisoned : c'.isPoisoned = true := by rw [now, crash]; rfl
      rw [run_of_poisoned d poisoned]
      refine ⟨?_, Kept.of_crash answers crash ?_⟩
      · rw [received, List.flatMap_map, List.flatMap_eq_nil_iff.2 fun _ _ => rfl, List.append_nil]
      · intro event member
        obtain ⟨call', -, rfl⟩ := List.mem_map.1 member
        exact ⟨rfl, rfl⟩
    · have sound' : c'.isPoisoned = false := by rw [now]; exact decide_eq_false crash
      obtain ⟨received', kept⟩ := inductionHypothesis sound' s'
      rw [now] at kept
      refine ⟨?_, Kept.cons answers crash (by rw [now]; exact kept)⟩
      rw [received', received, List.append_assoc]

end Console

open Console

/-- A console is called any number of times over any device.

* Its log has these calls, and what has reached the device is what reached it in each of them, in
  their order.
* As long as none of the calls before it has crashed, a call is answered in the style that was set last.
  A record that is written contributes its line in this style, one that fails a part from the beginning
  of that line but not all of it, and one that crashes any part from the beginning; no other call
  contributes anything. A flush ends as that of the device does. Once a call has crashed, all calls are
  refused and contribute nothing.
* A call that fails leaves the console as it was. The calls after it are logged as if it had not been
  made and nothing had reached the device before, which is in the state that the call has left.

Proof: a line is written in two pieces, and what reaches the device of the pieces is reached of the line
as a whole. A crash poisons the console, which from then on answers without its device. -/
theorem console_output_exact {σ : Type} (d : Device σ) (style : ConsoleStyle) (device : σ)
    (calls : List Console.Call) :
    let ended := run d (.ofStyle style) ⟨device, []⟩ calls
    ended.2.2.map Event.call = calls ∧
      ended.2.1.received = ended.2.2.flatMap Event.piece ∧
      Kept d style ended.2.2 ∧
      ∀ before call later, calls = before ++ call :: later →
        let (c, s, log) := run d (.ofStyle style) ⟨device, []⟩ before
        let (c', s', answer) := call.apply d c s
        (∃ e, answer = .ended (.failed e)) → c' = c ∧ ∃ piece,
          ended.2.2 =
            log ++ ⟨call, s.device, answer, piece⟩ :: (run d c ⟨s'.device, []⟩ later).2.2 := by
  intro ended
  obtain ⟨received, kept⟩ := run_of_sound d (c := .ofStyle style) rfl ⟨device, []⟩ calls
  refine ⟨map_call_run d _ _ calls, received, kept, ?_⟩
  intro before call later split
  rcases ran : run d (.ofStyle style) ⟨device, []⟩ before with ⟨c, s, log⟩
  rcases applied : call.apply d c s with ⟨c', s', answer⟩
  dsimp only
  rw [applied]
  rintro ⟨e, failed⟩
  dsimp only at failed ⊢
  subst failed
  have unchanged : (call.apply d c s).1 = c := apply_of_failed (congrArg (·.2.2) applied)
  rw [applied] at unchanged
  subst unchanged
  refine ⟨rfl, s'.received.drop s.received.length, ?_⟩
  have behind := run_after d c' s'.received ⟨s'.device, []⟩ later
  rw [Stream.after, List.append_nil] at behind
  have logged : ended.2.2 = (run d (.ofStyle style) ⟨device, []⟩ calls).2.2 := rfl
  rw [logged, split, run_append, ran]
  dsimp only
  rw [run, applied]
  dsimp only
  rw [behind]

/-- A device that receives as it is told beforehand, and then takes all it is offered. -/
def Device.told : Device (List Reception) where
  receive
    | [], bytes => ([], .took bytes.length)
    | next :: rest, _ => (rest, next)
  flush receptions := (receptions, .completed)
  patience := List.length
  patience_lt := by
    intro receptions rest bytes offered
    cases receptions with
    | nil => cases offered
    | cons next rest =>
      cases offered
      exact Nat.lt_succ_self _

/-- No room behind the first two bytes of a line; later a crash in a line break. -/
example :
    let r : Record := ⟨⟨0⟩, 1, .info, none, "hello"⟩
    let receptions := [.took 2, .refused .noSpace, .interrupted, .took 40, .took 5, .crashed 1]
    (run Device.told (.ofStyle .plain) ⟨receptions, []⟩
        [.consume r, .setStyle .plain, .consume r, .currentStyle]).2.2.map
        (fun event => (event.answer, event.piece.length)) =
      [(.ended (.failed (.disk .noSpace)), 2), (.ended .completed, 0), (.ended .crashed, 46),
        (.ended (.failed poisoned), 0)] := by
  cbv

end KeyValueService
