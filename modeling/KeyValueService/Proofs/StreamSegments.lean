import KeyValueService.Bytes.Segments
import Mathlib.Data.List.Basic

/-!
# Streams cut into segments

A stream that has arrived in part consists of the segments that are complete, each with its line
feed, and of the bytes behind the last line feed, which wait for more. What comes later only adds to
those bytes: `segments_append`. So the segments of a stream can be taken as they become complete,
wherever the stream is cut.
-/

namespace KeyValueService.Bytes

/-- The segments that end in a line feed. -/
def completed (bytes : List UInt8) : List (List UInt8) :=
  (segments bytes).filter isTerminated

/-- The bytes behind the last line feed. -/
def unterminated (bytes : List UInt8) : List UInt8 :=
  ((segments bytes).filter fun segment => !isTerminated segment).flatten

/-- How many bytes a segment has without its line feed. -/
def lineLength (segment : List UInt8) : Nat :=
  (segment.filter fun b => b != lineFeed).length

/-- A line feed ends the segment of the bytes before it. -/
theorem segments_append_lineFeed {waiting : List UInt8} (free : lineFeed ∉ waiting)
    (rest : List UInt8) :
    segments (waiting ++ lineFeed :: rest) = (waiting ++ [lineFeed]) :: segments rest := by
  induction waiting with
  | nil => rw [List.nil_append, segments, if_pos rfl, List.nil_append]
  | cons b more inductionHypothesis =>
    have ordinary : b ≠ lineFeed := fun same => free (same ▸ List.mem_cons_self)
    have freeMore : lineFeed ∉ more := fun member => free (List.mem_cons_of_mem b member)
    rw [List.cons_append, segments, if_neg ordinary, inductionHypothesis freeMore]
    rfl

/-- Bytes without a line feed are one segment, if there are any. -/
theorem segments_of_free {waiting : List UInt8} (free : lineFeed ∉ waiting) :
    segments waiting = if waiting = [] then [] else [waiting] := by
  induction waiting with
  | nil => rfl
  | cons b more inductionHypothesis =>
    have ordinary : b ≠ lineFeed := fun same => free (same ▸ List.mem_cons_self)
    have freeMore : lineFeed ∉ more := fun member => free (List.mem_cons_of_mem b member)
    rw [segments, if_neg ordinary, inductionHypothesis freeMore]
    by_cases none : more = []
    · simp [none]
    · simp [none]

theorem isTerminated_concat (waiting : List UInt8) :
    isTerminated (waiting ++ [lineFeed]) = true := by
  simp [isTerminated]

theorem isTerminated_of_free {waiting : List UInt8} (free : lineFeed ∉ waiting) :
    isTerminated waiting = false := by
  have other : waiting.getLast? ≠ some lineFeed := fun last =>
    free (List.mem_of_getLast? last)
  simp [isTerminated, other]

theorem completed_append_lineFeed {waiting : List UInt8} (free : lineFeed ∉ waiting)
    (rest : List UInt8) :
    completed (waiting ++ lineFeed :: rest) = (waiting ++ [lineFeed]) :: completed rest := by
  rw [completed, segments_append_lineFeed free,
    List.filter_cons_of_pos (isTerminated_concat waiting), completed]

theorem unterminated_append_lineFeed {waiting : List UInt8} (free : lineFeed ∉ waiting)
    (rest : List UInt8) :
    unterminated (waiting ++ lineFeed :: rest) = unterminated rest := by
  rw [unterminated, segments_append_lineFeed free, List.filter_cons_of_neg, unterminated]
  simp [isTerminated_concat]

theorem completed_of_free {waiting : List UInt8} (free : lineFeed ∉ waiting) :
    completed waiting = [] := by
  rw [completed, segments_of_free free]
  split
  · rfl
  · simp [isTerminated_of_free free]

theorem unterminated_of_free {waiting : List UInt8} (free : lineFeed ∉ waiting) :
    unterminated waiting = waiting := by
  rw [unterminated, segments_of_free free]
  split
  next none => rw [none]; rfl
  next => simp [isTerminated_of_free free]

/-- A stream has no line feed, or it is a stream behind a first one. -/
theorem stream_induction {motive : List UInt8 → Prop}
    (free : ∀ waiting, lineFeed ∉ waiting → motive waiting)
    (line : ∀ waiting rest, lineFeed ∉ waiting → motive rest →
      motive (waiting ++ lineFeed :: rest)) (bytes : List UInt8) : motive bytes := by
  have behind : ∀ waiting, lineFeed ∉ waiting → motive (waiting ++ bytes) := by
    induction bytes with
    | nil =>
      intro waiting none
      rw [List.append_nil]
      exact free waiting none
    | cons b rest inductionHypothesis =>
      intro waiting none
      by_cases feed : b = lineFeed
      · rw [feed]
        exact line waiting rest none (inductionHypothesis [] List.not_mem_nil)
      · have longer : lineFeed ∉ waiting ++ [b] := by
          simpa [none] using Ne.symm feed
        rw [List.append_cons]
        exact inductionHypothesis (waiting ++ [b]) longer
  exact behind [] List.not_mem_nil

theorem not_mem_unterminated (bytes : List UInt8) : lineFeed ∉ unterminated bytes := by
  induction bytes using stream_induction with
  | free waiting free =>
    rw [unterminated_of_free free]
    exact free
  | line waiting rest free inductionHypothesis =>
    rw [unterminated_append_lineFeed free]
    exact inductionHypothesis

/-- The complete segments stay as they are, and what comes later continues the bytes that wait. -/
theorem segments_append (bytes more : List UInt8) :
    segments (bytes ++ more) = completed bytes ++ segments (unterminated bytes ++ more) := by
  induction bytes using stream_induction with
  | free waiting free =>
    rw [completed_of_free free, unterminated_of_free free, List.nil_append]
  | line waiting rest free inductionHypothesis =>
    rw [List.append_assoc, List.cons_append, segments_append_lineFeed free,
      completed_append_lineFeed free, unterminated_append_lineFeed free, inductionHypothesis,
      List.cons_append]

theorem isTerminated_of_completed {bytes segment : List UInt8}
    (member : segment ∈ completed bytes) : isTerminated segment = true :=
  (List.mem_filter.1 member).2

theorem completed_append (bytes more : List UInt8) :
    completed (bytes ++ more) = completed bytes ++ completed (unterminated bytes ++ more) := by
  have all : (completed bytes).filter isTerminated = completed bytes :=
    List.filter_eq_self.2 fun segment => isTerminated_of_completed
  rw [completed, segments_append, List.filter_append, all, ← completed]

theorem unterminated_append (bytes more : List UInt8) :
    unterminated (bytes ++ more) = unterminated (unterminated bytes ++ more) := by
  have none : (completed bytes).filter (fun segment => !isTerminated segment) = [] := by
    refine List.filter_eq_nil_iff.2 fun segment member => ?_
    rw [isTerminated_of_completed member]
    exact Bool.false_ne_true
  rw [unterminated, segments_append, List.filter_append, none, List.nil_append, ← unterminated]

/-- A stream is cut into the complete segments and the bytes that wait, if there are any. -/
theorem segments_eq (bytes : List UInt8) :
    segments bytes =
      completed bytes ++ if unterminated bytes = [] then [] else [unterminated bytes] := by
  have parts := segments_append bytes []
  rw [List.append_nil, List.append_nil, segments_of_free (not_mem_unterminated bytes)] at parts
  exact parts

/-- Bytes that wait are at the front of a segment of the stream, whatever comes later. -/
theorem exists_segment_of_waiting {waiting : List UInt8} (free : lineFeed ∉ waiting)
    (waits : waiting ≠ []) (more : List UInt8) :
    ∃ segment ∈ segments (waiting ++ more), waiting <+: segment := by
  induction more using stream_induction with
  | free rest freeRest =>
    have together : lineFeed ∉ waiting ++ rest := by
      simp [free, freeRest]
    rw [segments_of_free together, if_neg (by simp [waits])]
    exact ⟨_, List.mem_singleton_self _, List.prefix_append waiting rest⟩
  | line rest others freeRest _ =>
    have together : lineFeed ∉ waiting ++ rest := by
      simp [free, freeRest]
    rw [← List.append_assoc, segments_append_lineFeed together]
    refine ⟨_, List.mem_cons_self, ?_⟩
    rw [List.append_assoc]
    exact List.prefix_append waiting _

theorem length_le_lineLength {waiting segment : List UInt8} (free : lineFeed ∉ waiting)
    (front : waiting <+: segment) : waiting.length ≤ lineLength segment := by
  have whole : waiting.filter (fun b => b != lineFeed) = waiting := by
    refine List.filter_eq_self.2 fun b member => ?_
    have ordinary : b ≠ lineFeed := fun same => free (same ▸ member)
    simpa using ordinary
  have kept := (front.filter fun b => b != lineFeed).length_le
  rw [whole] at kept
  exact kept

end KeyValueService.Bytes
