import KeyValueService.Proofs.RequestReading

/-!
# Canonical lines

A request is written as its verb, followed by its arguments with one space before each. A
line of a request may be indented, may have its verb in either case and may have line-end
characters behind it (`LineOf`). Main statement: `canonical_lines_inverse`. Every line of a
well-formed request is read as that request, and what is read from any line at all is well
formed, so it is read from its canonical line again.
-/

namespace KeyValueService

open Text

namespace Text

/-- No blank is a small letter. -/
theorem toUpper_of_isBlank {c : Char} (blank : isBlank c = true) : c.toUpper = c := by
  have code : ¬ (97 ≤ c.toNat ∧ c.toNat ≤ 122) := by
    simp only [isBlank, Bool.or_eq_true, Bool.and_eq_true, decide_eq_true_eq, beq_iff_eq] at blank
    omega
  refine dif_neg ?_
  rintro ⟨low, high⟩
  exact code ⟨UInt32.le_iff_toNat_le.1 low, UInt32.le_iff_toNat_le.1 high⟩

theorem isBlank_of_isDigit {c : Char} (digit : c.isDigit = true) : isBlank c = false := by
  have low : 48 ≤ c.toNat := by
    simp only [Char.isDigit, Bool.and_eq_true, decide_eq_true_eq] at digit
    exact UInt32.le_iff_toNat_le.1 digit.1
  have high : c.toNat ≤ 57 := by
    simp only [Char.isDigit, Bool.and_eq_true, decide_eq_true_eq] at digit
    exact UInt32.le_iff_toNat_le.1 digit.2
  simp only [isBlank, Bool.or_eq_false_iff, Bool.and_eq_false_iff, decide_eq_false_iff_not,
    beq_eq_false_iff_ne]
  omega

end Text

namespace Request

/-- The arguments of a request as they stand behind the verb. -/
def fields (r : Request) : List Char :=
  r.arguments.flatMap fun argument => ' ' :: argument.toList

/-- The canonical line is the verb with the arguments behind it. -/
theorem toList_line (r : Request) : r.line.toList = r.verb.name.toList ++ r.fields := by
  have joined : ∀ (first : String) (rest : List String),
      (String.intercalate " " (first :: rest)).toList =
        first.toList ++ rest.flatMap fun argument => ' ' :: argument.toList := by
    intro first rest
    induction rest generalizing first with
    | nil => simp
    | cons second rest inductionHypothesis =>
      rw [String.intercalate_cons_cons, String.toList_append, String.toList_append,
        inductionHypothesis, List.flatMap_cons]
      simp
  exact joined r.verb.name r.arguments

/-- The lines of a request: its canonical line with any blanks before it, the letters of the verb in
either case, and any run of line-end characters behind it. -/
inductive LineOf (r : Request) : List Char → Prop
  | intro {indent verb ending : List Char} (indented : Blanks indent)
    (spelled : verb.map Char.toUpper = r.verb.name.toList)
    (ended : ∀ c ∈ ending, isLineEnd c = true) :
    LineOf r (indent ++ (verb ++ r.fields) ++ ending)

theorem isWord_repr (n : Nat) : IsWord (Nat.repr n) := by
  refine ⟨by simp, fun c member => isBlank_of_isDigit (isDigit_of_mem_repr member)⟩

theorem isWord_levelName (level : Level) : IsWord level.name := by
  have solid : level.name.toList.all (fun c => !isBlank c) = true := by
    cases level <;> decide
  refine ⟨by cases level <;> decide, fun c member => ?_⟩
  simpa using List.all_eq_true.1 solid c member

/-- A word can stand at the end of a line. -/
theorem isValue_of_isWord {word : String} (isWord : IsWord word) : IsValue word := by
  refine isValue_iff.2 ⟨isWord.1, fun c last => ?_⟩
  exact not_isLineEnd_of_solid (isWord.2 c (List.mem_of_getLast? last))

/-- Every argument of a well-formed request can stand at the end of a line. -/
theorem isValue_of_mem_arguments {r : Request} (wellFormed : r.WellFormed) :
    ∀ argument ∈ r.arguments, IsValue argument := by
  cases r with
  | put key value | update key value =>
    exact List.forall_mem_cons.2
      ⟨isValue_of_isWord wellFormed.1, List.forall_mem_singleton.2 wellFormed.2⟩
  | sessionLogs session count =>
    exact List.forall_mem_cons.2 ⟨isValue_of_isWord wellFormed.1,
      List.forall_mem_singleton.2 (isValue_of_isWord (isWord_repr count))⟩
  | level threshold =>
    cases threshold with
    | none => exact fun argument member => nomatch member
    | some level => exact List.forall_mem_singleton.2 (isValue_of_isWord (isWord_levelName level))
  | logs count => exact List.forall_mem_singleton.2 (isValue_of_isWord (isWord_repr count))
  | clear scope =>
    cases scope with
    | everything => exact List.forall_mem_singleton.2 ⟨by decide, by decide, by decide⟩
    | session name => exact List.forall_mem_singleton.2 (isValue_of_isWord wellFormed.1)
  | shutdown => exact fun argument member => nomatch member
  | quit => exact fun argument member => nomatch member
  | auth word | get word | delete word | exportLog word =>
    exact List.forall_mem_singleton.2 (isValue_of_isWord wellFormed)

/-- So its canonical line ends in no line-end character. -/
theorem not_isLineEnd_of_last {values : List String} (sound : ∀ value ∈ values, IsValue value)
    (c : Char) (last : (values.flatMap fun value => ' ' :: value.toList).getLast? = some c) :
    isLineEnd c = false := by
  induction values with
  | nil => cases last
  | cons value rest inductionHypothesis =>
    obtain ⟨isValue, others⟩ := List.forall_mem_cons.1 sound
    obtain ⟨some, stops⟩ := isValue_iff.1 isValue
    have characters : value.toList ≠ [] := by simpa using some
    rw [List.flatMap_cons] at last
    by_cases nothing : (rest.flatMap fun value => ' ' :: value.toList) = []
    · rw [nothing, List.append_nil, List.getLast?_cons_of_ne_nil characters] at last
      exact stops c last
    · rw [List.getLast?_append_of_ne_nil _ nothing] at last
      exact inductionHypothesis others last

/-- A word that is all there is. -/
theorem startsWith_word {word : String} (isWord : IsWord word) :
    StartsWith word.toList [] word.toList :=
  .alone blanks_nil ((solid_toList_iff word).2 isWord)

/-- A word with a space and more behind it. -/
theorem startsWith_word_space {word : String} (isWord : IsWord word) (rest : List Char) :
    StartsWith word.toList rest (word.toList ++ ' ' :: rest) :=
  .followed blanks_nil ((solid_toList_iff word).2 isWord) (by decide)

theorem readWord_self (verb : Verb) (argument : Argument) {word : String} (isWord : IsWord word) :
    readWord verb argument word.toList = .ok word :=
  readWord_iff.2 ⟨[], startsWith_word isWord, blanks_nil⟩

theorem readPair_fields (verb : Verb) {key value : String} (isWord : IsWord key)
    (isValue : IsValue value) :
    readPair verb (key.toList ++ ' ' :: value.toList) = .ok (key, value) :=
  readPair_iff.2 ⟨startsWith_word_space isWord value.toList, isValue.1⟩

theorem readCount_repr (verb : Verb) {count : Nat} (le : count ≤ maxCount) :
    readCount verb (Nat.repr count).toList = .ok count := by
  have isWord := isWord_repr count
  have word : needed verb .count (Nat.repr count).toList = .ok (Nat.repr count) :=
    needed_iff.2 ⟨by simp, rfl⟩
  have nothing : nothingMore verb [] = .ok () := (nothingMore_iff verb []).2 blanks_nil
  simp only [readCount, nextWord_of_startsWith (startsWith_word isWord), nothing, word,
    readNat_repr le, bind, Except.bind, pure, Except.pure]

/-- The verb of a well-formed request reads the request from its arguments. -/
theorem readArguments_fields {r : Request} (wellFormed : r.WellFormed) :
    readArguments (r.fields.drop 1) r.verb = .ok r := by
  have single : ∀ argument : String,
      ([argument].flatMap fun argument => ' ' :: argument.toList).drop 1 = argument.toList := by
    intro argument
    simp
  have double : ∀ first second : String,
      ([first, second].flatMap fun argument => ' ' :: argument.toList).drop 1 =
        first.toList ++ ' ' :: second.toList := by
    intro first second
    simp
  cases r with
  | auth word | get word | delete word | exportLog word =>
    simp only [fields, arguments, single, verb, readArguments, readWord_self _ _ wellFormed, bind,
      Except.bind, pure, Except.pure]
  | put key value | update key value =>
    simp only [fields, arguments, double, verb, readArguments,
      readPair_fields _ wellFormed.1 wellFormed.2, bind, Except.bind, pure, Except.pure]
  | level threshold =>
    cases threshold with
    | none => rfl
    | some level => cases level <;> rfl
  | logs count =>
    simp only [fields, arguments, single, verb, readArguments, Nat.toString_eq_repr,
      readCount_repr _ wellFormed, bind, Except.bind, pure, Except.pure]
  | sessionLogs session count =>
    have named : needed .sessionLogs .session session.toList = .ok session :=
      needed_iff.2 ⟨by simpa using wellFormed.1.1, rfl⟩
    simp only [fields, arguments, double, verb, readArguments, Nat.toString_eq_repr,
      nextWord_of_startsWith (startsWith_word_space wellFormed.1 _), named,
      readCount_repr _ wellFormed.2, bind, Except.bind, pure, Except.pure]
  | clear scope =>
    cases scope with
    | everything => rfl
    | session name =>
      simp only [fields, arguments, single, verb, readArguments, readWord_self _ _ wellFormed.1,
        scopeOf, if_neg wellFormed.2, bind, Except.bind, pure, Except.pure]
  | shutdown => rfl
  | quit => rfl

/-- A name in either case is as solid as it is in capitals. -/
theorem solid_of_spelled {verb name : List Char} (spelled : verb.map Char.toUpper = name)
    (solid : Solid name) : Solid verb := by
  subst spelled
  refine ⟨by simpa using solid.1, fun c member => ?_⟩
  by_contra blank
  rw [Bool.not_eq_false] at blank
  have upper := solid.2 c.toUpper (List.mem_map_of_mem member)
  rw [toUpper_of_isBlank blank, blank] at upper
  cases upper

theorem read?_of_spelled {verb : Verb} {name : List Char}
    (spelled : name.map Char.toUpper = verb.name.toList) : Verb.read? name = some verb := by
  rw [Verb.read?, upperAscii, String.toList_ofList, spelled, String.ofList_toList, Verb.ofName?_name]

/-- Behind a verb its arguments are what follows the first blank. -/
theorem startsWith_fields (r : Request) {indent verb : List Char} (indented : Blanks indent)
    (solid : Solid verb) : StartsWith verb (r.fields.drop 1) (indent ++ (verb ++ r.fields)) := by
  rw [fields]
  cases r.arguments with
  | nil =>
    rw [List.flatMap_nil, List.append_nil]
    exact .alone indented solid
  | cons first rest =>
    rw [List.flatMap_cons, List.cons_append, List.drop_one, List.tail_cons]
    exact .followed indented solid (by decide)

/-- Every line of a well-formed request is read as the request. -/
theorem read_of_lineOf {r : Request} {line : List Char} (wellFormed : r.WellFormed)
    (lineOf : LineOf r line) : read line = .ok r := by
  cases lineOf with
  | @intro indent verb ending indented spelled ended =>
    have solid : Solid verb := solid_of_spelled spelled (solid_name r.verb)
    have stops : ∀ c, (indent ++ (verb ++ r.fields)).getLast? = some c → isLineEnd c = false := by
      intro c last
      rw [List.getLast?_append_of_ne_nil _ (by simp [solid.1])] at last
      by_cases nothing : r.fields = []
      · rw [nothing, List.append_nil] at last
        exact not_isLineEnd_of_solid (solid.2 c (List.mem_of_getLast? last))
      · rw [List.getLast?_append_of_ne_nil _ nothing] at last
        exact not_isLineEnd_of_last (isValue_of_mem_arguments wellFormed) c last
    refine read_iff.2 ⟨verb, r.fields.drop 1, ?_, read?_of_spelled spelled,
      readArguments_fields wellFormed⟩
    rw [dropEndWhile_append stops ended]
    exact startsWith_fields r indented solid

/-- The canonical line is a line of the request. -/
theorem lineOf_line (r : Request) : LineOf r r.line.toList := by
  have spelled : r.verb.name.toList.map Char.toUpper = r.verb.name.toList := by
    cases r.verb <;> decide
  have lineOf : LineOf r ([] ++ (r.verb.name.toList ++ r.fields) ++ []) :=
    .intro blanks_nil spelled fun c member => nomatch member
  rw [toList_line]
  simpa using lineOf

/-- Writing a request and reading a line undo each other:

* the canonical line of a well-formed request, also behind any blanks, with its verb in any mixture of
  capitals and small letters, and with any run of carriage returns and line feeds behind it, is read as
  the request;
* what is read from any line at all is well formed, and so is read again from its canonical line.

Proof: line-end characters are dropped up to the last argument, which does not end in one, or up to the
verb. The first word is then the verb, and each verb reads back its own arguments. -/
theorem canonical_lines_inverse :
    (∀ (r : Request) (line : List Char), r.WellFormed → LineOf r line → read line = .ok r) ∧
    ∀ (line : List Char) (r : Request), read line = .ok r →
      r.WellFormed ∧ LineOf r r.line.toList ∧ read r.line.toList = .ok r := by
  refine ⟨fun r line => read_of_lineOf, fun line r accepted => ?_⟩
  have wellFormed := wellFormed_of_read accepted
  exact ⟨wellFormed, lineOf_line r, read_of_lineOf wellFormed (lineOf_line r)⟩

/-- A value with blanks at both ends, and a line that is far from canonical. -/
theorem canonical_lines_of_padded_value :
    let r := put "k" "  a b\u2003"
    let line := "\u2003 pUt k   a b\u2003\r\n\r".toList
    let other := "\tclear  * \n".toList
    r.WellFormed ∧ LineOf r line ∧ read line = .ok r ∧
      read other = .ok (.clear .everything) ∧ (clear .everything).WellFormed ∧
      read (clear .everything).line.toList = .ok (.clear .everything) := by
  intro r line other
  have isWord : IsWord "k" := by
    refine ⟨by decide, fun c member => ?_⟩
    obtain rfl := List.mem_singleton.1 member
    decide
  have wellFormed : r.WellFormed := ⟨isWord, by decide, by decide, by decide⟩
  have indented : Blanks "\u2003 ".toList := List.all_eq_true.1 (by decide +kernel)
  have ended : ∀ c ∈ "\r\n\r".toList, isLineEnd c = true := List.all_eq_true.1 (by decide +kernel)
  have lineOf : LineOf r line :=
    @LineOf.intro r "\u2003 ".toList "pUt".toList "\r\n\r".toList indented (by decide) ended
  have accepted : read "\tclear  * \n".toList = .ok (.clear .everything) := by decide +kernel
  obtain ⟨reads, back⟩ := canonical_lines_inverse
  exact ⟨wellFormed, lineOf, reads r line wellFormed lineOf, accepted, (back other _ accepted).1,
    (back other _ accepted).2.2⟩

end Request

end KeyValueService
