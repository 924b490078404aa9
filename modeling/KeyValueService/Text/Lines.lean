/-!
# Lines

A text is cut into lines after each line feed. A carriage return right before the feed belongs to
the line break; one anywhere else belongs to the line. A text that ends in a line break has no
further, empty line. `Broken` says this of a text and its lines, and `lines` finds the lines.
-/

namespace KeyValueService.Text

/-- The lines of a text, without their line breaks. -/
def lines : List Char → List (List Char)
  | [] => []
  | '\n' :: rest => [] :: lines rest
  | '\r' :: '\n' :: rest => [] :: lines rest
  | c :: rest =>
    match lines rest with
    | [] => [[c]]
    | line :: others => (c :: line) :: others

/-- The lines of a text with their numbers, counted from one. -/
def numberedLines (text : String) : List (Nat × List Char) :=
  (lines text.toList).zipIdx 1 |>.map fun (line, number) => (number, line)

theorem map_snd_numberedLines (text : String) :
    (numberedLines text).map Prod.snd = lines text.toList := by
  rw [numberedLines, List.map_map]
  exact List.zipIdx_map_fst 1 _

@[simp] theorem lines_nil : lines [] = [] := rfl

@[simp] theorem lines_lineFeed (rest : List Char) : lines ('\n' :: rest) = [] :: lines rest := rfl

/-- A text and its lines. Each line but the last ends in a line break, and the last may. -/
inductive Broken : List Char → List (List Char) → Prop
  | done : Broken [] []
  | unended {line : List Char} (nonempty : line ≠ []) (whole : '\n' ∉ line) : Broken line [line]
  | fed {line rest : List Char} {others : List (List Char)} (whole : '\n' ∉ line)
      (bare : line.getLast? ≠ some '\r') (behind : Broken rest others) :
      Broken (line ++ '\n' :: rest) (line :: others)
  | returned {line rest : List Char} {others : List (List Char)} (whole : '\n' ∉ line)
      (behind : Broken rest others) : Broken (line ++ '\r' :: '\n' :: rest) (line :: others)

/-- A character with no line break at it belongs to the first line behind it. -/
theorem lines_cons {c : Char} {rest line : List Char} {others : List (List Char)}
    (notFeed : c ≠ '\n') (noBreak : c = '\r' → rest.head? ≠ some '\n')
    (behind : lines rest = line :: others) : lines (c :: rest) = (c :: line) :: others := by
  rw [lines]
  · rw [behind]
  · exact notFeed
  · rintro more rfl rfl
    exact noBreak rfl rfl

theorem lines_unended {line : List Char} (nonempty : line ≠ []) (whole : '\n' ∉ line) :
    lines line = [line] := by
  induction line with
  | nil => exact absurd rfl nonempty
  | cons c more inductionHypothesis =>
    have notFeed := (List.ne_of_not_mem_cons whole).symm
    have wholeBehind := List.not_mem_of_not_mem_cons whole
    cases more with
    | nil =>
      rw [lines]
      · rfl
      · exact notFeed
      · simp
    | cons next more =>
      refine lines_cons notFeed ?_ (inductionHypothesis (by simp) wholeBehind)
      rintro - feed
      exact List.ne_of_not_mem_cons wholeBehind (Option.some.inj feed).symm

/-- A line feed ends the line before it, if no carriage return does. -/
theorem lines_fed {line : List Char} (whole : '\n' ∉ line) (bare : line.getLast? ≠ some '\r')
    (rest : List Char) : lines (line ++ '\n' :: rest) = line :: lines rest := by
  induction line with
  | nil => rfl
  | cons c more inductionHypothesis =>
    have notFeed := (List.ne_of_not_mem_cons whole).symm
    have wholeBehind := List.not_mem_of_not_mem_cons whole
    cases more with
    | nil =>
      refine lines_cons notFeed ?_ rfl
      rintro rfl
      exact absurd rfl bare
    | cons next more =>
      refine lines_cons notFeed ?_ (inductionHypothesis wholeBehind bare)
      rintro - feed
      exact List.ne_of_not_mem_cons wholeBehind (Option.some.inj feed).symm

theorem lines_returned {line : List Char} (whole : '\n' ∉ line) (rest : List Char) :
    lines (line ++ '\r' :: '\n' :: rest) = line :: lines rest := by
  induction line with
  | nil => rfl
  | cons c more inductionHypothesis =>
    have notFeed := (List.ne_of_not_mem_cons whole).symm
    have wholeBehind := List.not_mem_of_not_mem_cons whole
    refine lines_cons notFeed ?_ (inductionHypothesis wholeBehind)
    rintro - feed
    cases more with
    | nil => exact absurd (Option.some.inj feed) (by decide)
    | cons next more => exact List.ne_of_not_mem_cons wholeBehind (Option.some.inj feed).symm

/-- A character with no line break at it is the first of its line. -/
theorem Broken.cons {c : Char} {rest line : List Char} {others : List (List Char)}
    (notFeed : c ≠ '\n') (noBreak : c = '\r' → rest.head? ≠ some '\n')
    (broken : Broken rest (line :: others)) : Broken (c :: rest) ((c :: line) :: others) := by
  have longer : '\n' ∉ line → '\n' ∉ c :: line :=
    List.not_mem_cons_of_ne_of_not_mem notFeed.symm
  cases broken with
  | unended nonempty whole => exact .unended (List.cons_ne_nil c _) (longer whole)
  | fed whole bare behind =>
    refine .fed (longer whole) ?_ behind
    cases line with
    | nil =>
      intro ends
      exact noBreak (Option.some.inj ends) rfl
    | cons next more => exact bare
  | returned whole behind => exact .returned (longer whole) behind

/-- No line has a line feed in it. -/
theorem Broken.unbroken {s : List Char} {parts : List (List Char)} (broken : Broken s parts) :
    ∀ line ∈ parts, '\n' ∉ line := by
  induction broken with
  | done => simp
  | unended nonempty whole => simpa using whole
  | fed whole bare behind inductionHypothesis =>
    exact List.forall_mem_cons.2 ⟨whole, inductionHypothesis⟩
  | returned whole behind inductionHypothesis =>
    exact List.forall_mem_cons.2 ⟨whole, inductionHypothesis⟩

/-- The lines of a text are the only way to break it. -/
theorem lines_eq_iff {s : List Char} {parts : List (List Char)} : lines s = parts ↔ Broken s parts := by
  constructor
  · rintro rfl
    fun_induction lines s with
    | case1 => exact .done
    | case2 rest inductionHypothesis => exact @Broken.fed [] _ _ List.not_mem_nil nofun inductionHypothesis
    | case3 rest inductionHypothesis => exact @Broken.returned [] _ _ List.not_mem_nil inductionHypothesis
    | case4 c rest notFeed noBreak none inductionHypothesis =>
      rw [none] at inductionHypothesis
      cases inductionHypothesis
      exact .unended (List.cons_ne_nil c _) (by simpa using Ne.symm notFeed)
    | case5 c rest notFeed noBreak line others found inductionHypothesis =>
      rw [found] at inductionHypothesis
      refine inductionHypothesis.cons notFeed ?_
      intro ret feed
      obtain ⟨more, rfl⟩ := List.head?_eq_some_iff.1 feed
      exact noBreak more ret rfl
  · intro broken
    induction broken with
    | done => rfl
    | unended nonempty whole => exact lines_unended nonempty whole
    | fed whole bare behind inductionHypothesis => rw [lines_fed whole bare, inductionHypothesis]
    | returned whole behind inductionHypothesis => rw [lines_returned whole, inductionHypothesis]

end KeyValueService.Text
