/-!
# Pieces

Cutting a text at a separator: at every one, or at the first one only. The separators belong to no
piece.
-/

namespace KeyValueService.Text

/-- The pieces between the separators, one more than there are separators. -/
def pieces (separator : Char) : List Char → List (List Char)
  | [] => [[]]
  | c :: rest =>
    if c = separator then [] :: pieces separator rest
    else
      match pieces separator rest with
      | [] => [[c]]
      | first :: others => (c :: first) :: others

/-- The parts before and after the first separator, if there is one. -/
def cut? (isSeparator : Char → Bool) (s : List Char) : Option (List Char × List Char) :=
  match s.dropWhile fun c => !isSeparator c with
  | [] => none
  | _ :: after => some (s.takeWhile fun c => !isSeparator c, after)

/-- The parts before and after the last separator, if there is one. -/
def cutLast? (isSeparator : Char → Bool) (s : List Char) : Option (List Char × List Char) :=
  (cut? isSeparator s.reverse).map fun (after, before) => (before.reverse, after.reverse)

/-- A text is cut at the first separator in it. -/
theorem cut?_append {isSeparator : Char → Bool} {before : List Char} {separator : Char}
    (uncut : ∀ c ∈ before, isSeparator c = false) (separates : isSeparator separator = true)
    (after : List Char) : cut? isSeparator (before ++ separator :: after) = some (before, after) := by
  have noStop : ∀ c ∈ before, (!isSeparator c) = true := by
    intro c member
    rw [uncut c member]
    rfl
  have dropped : (before ++ separator :: after).dropWhile (fun c => !isSeparator c) =
      separator :: after := by
    rw [List.dropWhile_append_of_pos noStop, List.dropWhile_cons]
    simp [separates]
  have taken : (before ++ separator :: after).takeWhile (fun c => !isSeparator c) = before := by
    rw [List.takeWhile_append_of_pos noStop, List.takeWhile_cons]
    simp [separates]
  rw [cut?, dropped, taken]

theorem cut?_cons (isSeparator : Char → Bool) (c : Char) (rest : List Char) :
    cut? isSeparator (c :: rest) =
      if isSeparator c then some ([], rest)
      else (cut? isSeparator rest).map fun (before, after) => (c :: before, after) := by
  rw [cut?, List.dropWhile_cons, List.takeWhile_cons]
  cases isSeparator c with
  | true => rfl
  | false =>
    simp only [Bool.not_false, if_true, Bool.false_eq_true, if_false, cut?]
    cases rest.dropWhile fun c => !isSeparator c <;> rfl

theorem cut?_eq_none_iff {separator : Char} {s : List Char} :
    cut? (· == separator) s = none ↔ separator ∉ s := by
  induction s with
  | nil => simp [cut?]
  | cons c rest inductionHypothesis =>
    rw [cut?_cons, List.mem_cons, not_or, ← inductionHypothesis]
    by_cases same : c = separator
    · simp [same]
    · simp [same, Ne.symm same]

/-- A text is cut at the first separator and nowhere else. -/
theorem cut?_eq_some_iff {separator : Char} {s before after : List Char} :
    cut? (· == separator) s = some (before, after) ↔
      s = before ++ separator :: after ∧ separator ∉ before := by
  constructor
  · intro cut
    induction s generalizing before with
    | nil => simp [cut?] at cut
    | cons c rest inductionHypothesis =>
      rw [cut?_cons] at cut
      by_cases same : c = separator
      · rw [if_pos (beq_iff_eq.2 same)] at cut
        cases cut
        exact ⟨by rw [same]; rfl, List.not_mem_nil⟩
      · rw [if_neg (by simpa using same)] at cut
        obtain ⟨⟨front, behind⟩, found, parts⟩ := Option.map_eq_some_iff.1 cut
        cases parts
        obtain ⟨rfl, uncut⟩ := inductionHypothesis found
        exact ⟨rfl, by simp [uncut, Ne.symm same]⟩
  · rintro ⟨rfl, uncut⟩
    have differs : ∀ c ∈ before, (c == separator) = false := by
      intro c member
      rw [beq_eq_false_iff_ne]
      rintro rfl
      exact uncut member
    exact @cut?_append (· == separator) before separator differs (beq_self_eq_true separator) after

end KeyValueService.Text
