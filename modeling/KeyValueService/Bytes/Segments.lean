/-!
# Segments

A byte sequence is cut after each line feed. The segments, one after the other, are the sequence, and
every one but the last ends in a line feed.
-/

namespace KeyValueService.Bytes

/-- The byte of a line feed. -/
def lineFeed : UInt8 := 10

/-- The segments of a byte sequence, each with the line feed that ends it. -/
def segments : List UInt8 → List (List UInt8)
  | [] => []
  | b :: rest =>
    if b = lineFeed then [b] :: segments rest
    else
      match segments rest with
      | [] => [[b]]
      | first :: others => (b :: first) :: others

/-- Whether a segment ends in a line feed. -/
def isTerminated (segment : List UInt8) : Bool :=
  segment.getLast? == some lineFeed

theorem flatten_segments (bytes : List UInt8) : (segments bytes).flatten = bytes := by
  induction bytes with
  | nil => rfl
  | cons b rest inductionHypothesis =>
    rw [segments]
    split
    · simp [inductionHypothesis]
    · split
      next none =>
        rw [none, List.flatten_nil] at inductionHypothesis
        simp [← inductionHypothesis]
      next first others found =>
        rw [found, List.flatten_cons] at inductionHypothesis
        simp [inductionHypothesis]

end KeyValueService.Bytes
