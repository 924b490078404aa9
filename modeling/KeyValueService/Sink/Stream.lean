import KeyValueService.Sink.Outcome

/-!
# Streams of bytes

A stream passes bytes on to a device that may take only the first of those it is offered, be
interrupted, refuse them, or crash. Writing offers what is left until nothing is left, so that a device
gets the bytes in order and none twice; a device that takes nothing has failed, and one that was
interrupted is asked again. Main statement: `received_writeAll`, by which what reaches the device is a
part of the bytes, counted from their beginning: all of them if the write completes, and not all of them
if it fails.
-/

namespace KeyValueService

/-- What a device does with bytes it is offered. It may have taken some of them when it crashes. -/
inductive Reception
  | took (count : Nat)
  | interrupted
  | refused (cause : DiskError)
  | crashed (count : Nat := 0)
  deriving DecidableEq, Repr

/-- The behaviour of a device in terms of its state. It is not interrupted for ever: with each time its
patience is less. -/
structure Device (σ : Type) where
  receive : σ → List UInt8 → σ × Reception
  flush : σ → σ × Outcome
  patience : σ → Nat := fun _ => 0
  patience_lt : ∀ {s s' : σ} {bytes : List UInt8}, receive s bytes = (s', .interrupted) →
    patience s' < patience s := by grind

/-- A device that takes all it is offered. -/
def Device.boundless : Device Unit where
  receive _ bytes := ((), .took bytes.length)
  flush _ := ((), .completed)

/-- The state of a device and all the bytes that have reached it. -/
structure Stream (σ : Type) where
  device : σ
  received : List UInt8

namespace Stream

variable {σ : Type}

/-- The stream with a new state of its device and more bytes received. -/
def extend (s : Stream σ) (device : σ) (bytes : List UInt8) : Stream σ :=
  ⟨device, s.received ++ bytes⟩

/-- Offers the bytes to the device, and then what it has left of them, until it has all. A device that
claims to have taken more than it was offered crashes the write. -/
def writeAll (d : Device σ) (s : Stream σ) (bytes : List UInt8) : Stream σ × Outcome :=
  if bytes = [] then (s, .completed)
  else
    match offered : d.receive s.device bytes with
    | (device, .refused cause) => (s.extend device [], .failed (.disk cause))
    | (device, .crashed count) => (s.extend device (bytes.take count), .crashed)
    | (device, .interrupted) => writeAll d (s.extend device []) bytes
    | (device, .took 0) => (s.extend device [], .failed (.disk .nothingWritten))
    | (device, .took (count + 1)) =>
      if bytes.length < count + 1 then (s.extend device bytes, .crashed)
      else writeAll d (s.extend device (bytes.take (count + 1))) (bytes.drop (count + 1))
termination_by (bytes.length, d.patience s.device)
decreasing_by
  · exact .right _ (d.patience_lt offered)
  · refine .left _ _ ?_
    rw [List.length_drop]
    omega

/-- What comes of an offer decides how writing goes on. -/
theorem writeAll_eq (d : Device σ) (s : Stream σ) (bytes : List UInt8) :
    s.writeAll d bytes =
      if bytes = [] then (s, .completed)
      else
        match d.receive s.device bytes with
        | (device, .refused cause) => (s.extend device [], .failed (.disk cause))
        | (device, .crashed count) => (s.extend device (bytes.take count), .crashed)
        | (device, .interrupted) => (s.extend device []).writeAll d bytes
        | (device, .took 0) => (s.extend device [], .failed (.disk .nothingWritten))
        | (device, .took (count + 1)) =>
          if bytes.length < count + 1 then (s.extend device bytes, .crashed)
          else (s.extend device (bytes.take (count + 1))).writeAll d (bytes.drop (count + 1)) := by
  rw [writeAll]
  split
  next nothing => rfl
  next something => rcases d.receive s.device bytes with ⟨device, (⟨⟩ | count) | ⟨⟩ | cause | count⟩ <;> rfl

/-- Writes pieces one after the other, up to the first that does not complete. -/
def writePieces (d : Device σ) (s : Stream σ) : List (List UInt8) → Stream σ × Outcome
  | [] => (s, .completed)
  | piece :: rest =>
    match s.writeAll d piece with
    | (s, .completed) => writePieces d s rest
    | other => other

/-- Flushes the device. -/
def flush (d : Device σ) (s : Stream σ) : Stream σ × Outcome :=
  let (device, outcome) := d.flush s.device
  (s.extend device [], outcome)

/-- How much of some bytes has reached a device when writing them ends: all if it completes, a part from
their beginning that is not all if it fails, and any part from their beginning if it crashes. -/
inductive Reached (bytes : List UInt8) : Outcome → List UInt8 → Prop
  | completed : Reached bytes .completed bytes
  | failed (cause : DiskError) {part : List UInt8} (fromStart : part <+: bytes)
      (proper : part ≠ bytes) : Reached bytes (.failed (.disk cause)) part
  | crashed {part : List UInt8} (fromStart : part <+: bytes) : Reached bytes .crashed part

/-- What is reached of the bytes behind others, is reached of all of them with the others. -/
theorem Reached.behind {bytes part : List UInt8} {outcome : Outcome} (reached : Reached bytes outcome part)
    (before : List UInt8) : Reached (before ++ bytes) outcome (before ++ part) := by
  cases reached with
  | completed => exact .completed
  | failed cause fromStart proper =>
    refine .failed cause ((List.prefix_append_right_inj before).2 fromStart) ?_
    exact fun same => proper (List.append_cancel_left same)
  | crashed fromStart => exact .crashed ((List.prefix_append_right_inj before).2 fromStart)

/-- What is reached of bytes when writing them ends early, is reached of all if others were to follow. -/
theorem Reached.early {bytes part : List UInt8} {outcome : Outcome} (reached : Reached bytes outcome part)
    (early : outcome ≠ .completed) (more : List UInt8) : Reached (bytes ++ more) outcome part := by
  cases reached with
  | completed => exact absurd rfl early
  | failed cause fromStart proper =>
    refine .failed cause (fromStart.trans (List.prefix_append bytes more)) ?_
    rintro rfl
    exact proper (fromStart.eq_of_length_le (by simp))
  | crashed fromStart => exact .crashed (fromStart.trans (List.prefix_append bytes more))

/-- What reaches the device are bytes from the beginning. -/
theorem received_writeAll (d : Device σ) (s : Stream σ) (bytes : List UInt8) :
    ∃ part, (s.writeAll d bytes).1.received = s.received ++ part ∧
      Reached bytes (s.writeAll d bytes).2 part := by
  fun_induction writeAll d s bytes with
  | case1 s => exact ⟨[], (List.append_nil _).symm, .completed⟩
  | case2 s bytes something device cause offered =>
    exact ⟨[], rfl, .failed cause List.nil_prefix (Ne.symm something)⟩
  | case3 s bytes something device count offered =>
    exact ⟨bytes.take count, rfl, .crashed (List.take_prefix count bytes)⟩
  | case4 s bytes something device offered inductionHypothesis =>
    obtain ⟨part, received, reached⟩ := inductionHypothesis
    refine ⟨part, ?_, reached⟩
    rw [received, extend, List.append_nil]
  | case5 s bytes something device offered =>
    exact ⟨[], rfl, .failed .nothingWritten List.nil_prefix (Ne.symm something)⟩
  | case6 s bytes something device count offered more =>
    exact ⟨bytes, rfl, .crashed (List.prefix_refl bytes)⟩
  | case7 s bytes something device count offered within inductionHypothesis =>
    obtain ⟨part, received, reached⟩ := inductionHypothesis
    refine ⟨bytes.take (count + 1) ++ part, ?_, ?_⟩
    · rw [received, extend, List.append_assoc]
    · have joined := reached.behind (bytes.take (count + 1))
      rwa [List.take_append_drop] at joined

end Stream

end KeyValueService
