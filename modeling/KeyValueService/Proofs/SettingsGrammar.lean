import KeyValueService.Settings.Basic
import Mathlib.Data.List.Induction

/-!
# The grammar of settings texts

What the lines of a settings text have to look like, and what they then say, without a word on how they
are read. A line, taken without the blanks at its ends, is idle, or the header of a section, or an
assignment to a key in the section of the last header above it. Main statement:
`settings_read_exactly`. Reading gives every key of every section, and every global key, the value
assigned to it last, and nothing else; where some line is none of the three, reading ends with what is
wrong with the first such line.
-/

namespace KeyValueService

open Text

namespace SettingsLine

/-- A line that says nothing: an empty one, or a comment. -/
def Idle (line : List Char) : Prop :=
  line = [] ∨ line.head? = some '#'

instance (line : List Char) : Decidable (Idle line) :=
  inferInstanceAs (Decidable (_ ∨ _))

/-- A header: a pair of brackets with a name between them, which may have blanks around it. -/
def IsHeader (line : List Char) (name : String) : Prop :=
  ∃ inside, line = '[' :: (inside ++ [']']) ∧ trimChars inside ≠ [] ∧
    name = String.ofList (trimChars inside)

/-- An assignment: a key, the first equality sign, and a value. Blanks around the two do not count, nor
do double quotes at the ends of the value. -/
def Assigns (line : List Char) (key value : String) : Prop :=
  ¬Idle line ∧ line.head? ≠ some '[' ∧ ∃ before after, line = before ++ '=' :: after ∧
    '=' ∉ before ∧ trimChars before ≠ [] ∧ key = String.ofList (trimChars before) ∧
      value = String.ofList (stripWhile (· == '\"') (trimChars after))

/-- A line that says something, or nothing. -/
def WellFormed (line : List Char) : Prop :=
  Idle line ∨ (∃ name, IsHeader line name) ∨ ∃ key value, Assigns line key value

/-- The rule that a line breaks. -/
inductive Breaks : List Char → LineFault → Prop
  | unterminated (rest : List Char) (opened : rest.getLast? ≠ some ']') :
      Breaks ('[' :: rest) .unterminatedHeader
  | nameless (inside : List Char) (empty : trimChars inside = []) :
      Breaks ('[' :: (inside ++ [']'])) .emptyHeader
  | unassigned (line : List Char) (busy : ¬Idle line) (noBracket : line.head? ≠ some '[')
      (noSign : '=' ∉ line) : Breaks line .noAssignment
  | keyless (before after : List Char) (busy : ¬Idle (before ++ '=' :: after))
      (noBracket : (before ++ '=' :: after).head? ≠ some '[') (first : '=' ∉ before)
      (empty : trimChars before = []) : Breaks (before ++ '=' :: after) .missingKey

theorem read_of_idle {line : List Char} (idle : Idle line) : read line = .ok .nothing := by
  rcases idle with rfl | comment
  · rfl
  · obtain ⟨rest, rfl⟩ := List.head?_eq_some_iff.1 comment
    rfl

theorem read_eq_readAssignment {line : List Char} (busy : ¬Idle line)
    (noBracket : line.head? ≠ some '[') : read line = readAssignment line := by
  cases line with
  | nil => exact absurd (.inl rfl) busy
  | cons c rest =>
    have notComment : c ≠ '#' := fun same => busy (.inr (congrArg some same))
    have notOpening : c ≠ '[' := fun same => noBracket (congrArg some same)
    rw [read]
    all_goals simp_all

theorem read_of_header {line : List Char} {name : String} (header : IsHeader line name) :
    read line = .ok (.header name) := by
  obtain ⟨inside, rfl, named, rfl⟩ := header
  rw [read, readHeader, List.getLast?_concat, if_pos rfl, List.dropLast_concat]
  split
  next empty => exact absurd empty named
  next => rfl

theorem read_of_assigns {line : List Char} {key value : String} (assigns : Assigns line key value) :
    read line = .ok (.assignment key value) := by
  obtain ⟨busy, noBracket, before, after, rfl, first, keyed, rfl, rfl⟩ := assigns
  rw [read_eq_readAssignment busy noBracket, readAssignment, cut?_eq_some_iff.2 ⟨rfl, first⟩]
  dsimp only
  split
  next empty => exact absurd empty keyed
  next => rfl

theorem read_of_breaks {line : List Char} {fault : LineFault} (breaks : Breaks line fault) :
    read line = .error fault := by
  cases breaks with
  | unterminated rest opened => rw [read, readHeader, if_neg opened]
  | nameless inside empty =>
    rw [read, readHeader, List.getLast?_concat, if_pos rfl, List.dropLast_concat, empty]
  | unassigned _ busy noBracket noSign =>
    rw [read_eq_readAssignment busy noBracket, readAssignment, cut?_eq_none_iff.2 noSign]
  | keyless before after busy noBracket first empty =>
    rw [read_eq_readAssignment busy noBracket, readAssignment, cut?_eq_some_iff.2 ⟨rfl, first⟩]
    dsimp only
    rw [empty]

/-- Every line is idle, a header or an assignment, or it breaks a rule. -/
theorem wellFormed_or_breaks (line : List Char) : WellFormed line ∨ ∃ fault, Breaks line fault := by
  by_cases idle : Idle line
  · exact .inl (.inl idle)
  by_cases bracket : line.head? = some '['
  · obtain ⟨rest, rfl⟩ := List.head?_eq_some_iff.1 bracket
    by_cases closed : rest.getLast? = some ']'
    · obtain ⟨inside, rfl⟩ := List.getLast?_eq_some_iff.1 closed
      by_cases empty : trimChars inside = []
      · exact .inr ⟨_, .nameless inside empty⟩
      · exact .inl (.inr (.inl ⟨_, inside, rfl, empty, rfl⟩))
    · exact .inr ⟨_, .unterminated rest closed⟩
  cases cut : cut? (· == '=') line with
  | none => exact .inr ⟨_, .unassigned line idle bracket (cut?_eq_none_iff.1 cut)⟩
  | some parts =>
    obtain ⟨before, after⟩ := parts
    obtain ⟨rfl, first⟩ := cut?_eq_some_iff.1 cut
    by_cases empty : trimChars before = []
    · exact .inr ⟨_, .keyless before after idle bracket first empty⟩
    · exact .inl (.inr (.inr ⟨_, _, idle, bracket, before, after, rfl, first, empty, rfl, rfl⟩))

/-- A line assigns one value to one key. -/
theorem Assigns.unique {line : List Char} {key value key' value' : String}
    (assigns : Assigns line key value) (assigns' : Assigns line key' value') :
    key = key' ∧ value = value' := by
  have same := (read_of_assigns assigns).symm.trans (read_of_assigns assigns')
  simpa using same

theorem IsHeader.unique {line : List Char} {name name' : String} (header : IsHeader line name)
    (header' : IsHeader line name') : name = name' := by
  have same := (read_of_header header).symm.trans (read_of_header header')
  simpa using same

theorem not_isHeader_of_idle {line : List Char} (idle : Idle line) (name : String) :
    ¬IsHeader line name := by
  intro header
  have same := (read_of_idle idle).symm.trans (read_of_header header)
  simp at same

theorem not_assigns_of_idle {line : List Char} (idle : Idle line) (key value : String) :
    ¬Assigns line key value :=
  fun assigns => assigns.1 idle

theorem not_assigns_of_header {line : List Char} {name : String} (header : IsHeader line name)
    (key value : String) : ¬Assigns line key value := by
  intro assigns
  have same := (read_of_header header).symm.trans (read_of_assigns assigns)
  simp at same

/-- The lines that are read without a fault are the well-formed ones. -/
theorem isOk_read_iff {line : List Char} : (read line).isOk = true ↔ WellFormed line := by
  constructor
  · intro done
    refine (wellFormed_or_breaks line).resolve_right ?_
    rintro ⟨fault, breaks⟩
    rw [read_of_breaks breaks] at done
    cases done
  · rintro (idle | ⟨name, header⟩ | ⟨key, value, assigns⟩)
    · rw [read_of_idle idle]
      rfl
    · rw [read_of_header header]
      rfl
    · rw [read_of_assigns assigns]
      rfl

instance (line : List Char) : Decidable (WellFormed line) :=
  decidable_of_iff _ isOk_read_iff

/-! ## Assignments in their sections -/

/-- The header with an index names a section. -/
def HeaderAt (lines : List (List Char)) (index : Nat) (name : String) : Prop :=
  ∃ line, lines[index]? = some line ∧ IsHeader line name

/-- Lines from an index on, up to the next header, belong to a section, or to none: the last header
before them names it. -/
def Belongs (lines : List (List Char)) (index : Nat) : Option String → Prop
  | none => ∀ earlier < index, ∀ name, ¬HeaderAt lines earlier name
  | some name => ∃ header < index, HeaderAt lines header name ∧
      ∀ between, header < between → between < index → ∀ other, ¬HeaderAt lines between other

/-- The line with an index assigns a value to a key of a section, or to a global key. -/
structure AssignedAt (lines : List (List Char)) (group : Option String) (index : Nat)
    (key value : String) : Prop where
  line : ∃ line, lines[index]? = some line ∧ Assigns line key value
  belongs : Belongs lines index group

/-- A value is assigned to a key of a section, or to a global key, and none is after it. -/
def LastAssigned (lines : List (List Char)) (group : Option String) (key value : String) : Prop :=
  ∃ index, AssignedAt lines group index key value ∧
    ∀ later, index < later → ∀ other, ¬AssignedAt lines group later key other

/-- A line is the first that is not well formed. -/
structure FirstMalformed (lines : List (List Char)) (index : Nat) (line : List Char) : Prop where
  there : lines[index]? = some line
  malformed : ¬WellFormed line
  before : ∀ earlier < index, ∀ other, lines[earlier]? = some other → WellFormed other

section OneMore

variable {lines : List (List Char)} {line : List Char} {index : Nat} {group : Option String}
  {key value name : String}

theorem headerAt_concat (below : index < lines.length) :
    HeaderAt (lines ++ [line]) index name ↔ HeaderAt lines index name := by
  rw [HeaderAt, HeaderAt, List.getElem?_append_left below]

theorem headerAt_last : HeaderAt (lines ++ [line]) lines.length name ↔ IsHeader line name := by
  simp [HeaderAt]

/-- Which section a line belongs to does not depend on what comes from it on. -/
theorem belongs_concat (le : index ≤ lines.length) :
    Belongs (lines ++ [line]) index group ↔ Belongs lines index group := by
  have same : ∀ earlier < index, ∀ name,
      HeaderAt (lines ++ [line]) earlier name ↔ HeaderAt lines earlier name :=
    fun earlier before name => headerAt_concat (Nat.lt_of_lt_of_le before le)
  cases group with
  | none =>
    constructor
    · exact fun none earlier before name => (same earlier before name).not.1 (none earlier before name)
    · exact fun none earlier before name => (same earlier before name).not.2 (none earlier before name)
  | some group =>
    constructor
    · rintro ⟨header, before, there, last⟩
      exact ⟨header, before, (same header before group).1 there, fun between after before other =>
        (same between before other).not.1 (last between after before other)⟩
    · rintro ⟨header, before, there, last⟩
      exact ⟨header, before, (same header before group).2 there, fun between after before other =>
        (same between before other).not.2 (last between after before other)⟩

/-- Behind a header its section begins. -/
theorem belongs_behind_header (header : IsHeader line name) :
    Belongs (lines ++ [line]) (lines.length + 1) (some name) :=
  ⟨lines.length, Nat.lt_succ_self _, headerAt_last.2 header, fun between after before => by omega⟩

/-- A line that is no header leaves the section as it is. -/
theorem belongs_behind_other (noHeader : ∀ name, ¬IsHeader line name)
    (belongs : Belongs lines lines.length group) :
    Belongs (lines ++ [line]) (lines.length + 1) group := by
  have last : ∀ name, ¬HeaderAt (lines ++ [line]) lines.length name :=
    fun name header => noHeader name (headerAt_last.1 header)
  have unchanged : Belongs (lines ++ [line]) lines.length group :=
    (belongs_concat (Nat.le_refl _)).2 belongs
  cases group with
  | none =>
    intro earlier before
    rcases Nat.lt_or_eq_of_le (Nat.le_of_lt_succ before) with before | rfl
    · exact unchanged earlier before
    · exact last
  | some group =>
    obtain ⟨header, before, there, none⟩ := unchanged
    refine ⟨header, Nat.lt_succ_of_lt before, there, fun between after before => ?_⟩
    rcases Nat.lt_or_eq_of_le (Nat.le_of_lt_succ before) with before | rfl
    · exact none between after before
    · exact last

end OneMore

/-- A line belongs to one section only, or to none. -/
theorem Belongs.unique {lines : List (List Char)} {index : Nat} {group group' : Option String}
    (belongs : Belongs lines index group) (belongs' : Belongs lines index group') : group = group' := by
  cases group with
  | none =>
    cases group' with
    | none => rfl
    | some name =>
      obtain ⟨header, before, there, -⟩ := belongs'
      exact absurd there (belongs header before name)
  | some name =>
    cases group' with
    | none =>
      obtain ⟨header, before, there, -⟩ := belongs
      exact absurd there (belongs' header before name)
    | some name' =>
      obtain ⟨header, before, there, last⟩ := belongs
      obtain ⟨header', before', there', last'⟩ := belongs'
      rcases Nat.lt_trichotomy header header' with earlier | rfl | later
      · exact absurd there' (last header' earlier before' name')
      · obtain ⟨line, known, isHeader⟩ := there
        obtain ⟨line', known', isHeader'⟩ := there'
        rw [known, Option.some.injEq] at known'
        subst known'
        rw [isHeader.unique isHeader']
      · exact absurd there (last' header later before name)

section OneMore

variable {lines : List (List Char)} {line : List Char} {index : Nat} {group : Option String}
  {key value : String}

theorem AssignedAt.lt (assigned : AssignedAt lines group index key value) : index < lines.length := by
  obtain ⟨⟨line, known, -⟩, -⟩ := assigned
  exact (List.getElem?_eq_some_iff.1 known).1

/-- With one more line, the assignments are those before and the one that it makes. -/
theorem assignedAt_concat :
    AssignedAt (lines ++ [line]) group index key value ↔
      AssignedAt lines group index key value ∨
        index = lines.length ∧ Assigns line key value ∧ Belongs lines lines.length group := by
  constructor
  · intro assigned
    obtain ⟨⟨own, known, assigns⟩, belongs⟩ := assigned
    rcases Nat.lt_trichotomy index lines.length with below | rfl | above
    · rw [List.getElem?_append_left below] at known
      exact .inl ⟨⟨own, known, assigns⟩, (belongs_concat (Nat.le_of_lt below)).1 belongs⟩
    · rw [List.getElem?_concat_length, Option.some.injEq] at known
      subst known
      exact .inr ⟨rfl, assigns, (belongs_concat (Nat.le_refl _)).1 belongs⟩
    · rw [List.getElem?_eq_none (by rw [List.length_append]; exact above)] at known
      cases known
  · rintro (assigned | ⟨rfl, assigns, belongs⟩)
    · have below := assigned.lt
      obtain ⟨⟨own, known, assigns⟩, belongs⟩ := assigned
      exact ⟨⟨own, (List.getElem?_append_left below).trans known, assigns⟩,
        (belongs_concat (Nat.le_of_lt below)).2 belongs⟩
    · exact ⟨⟨line, List.getElem?_concat_length, assigns⟩, (belongs_concat (Nat.le_refl _)).2 belongs⟩

/-- A line that assigns nothing to a key leaves the last assignment to it as it is. -/
theorem lastAssigned_concat_of_other
    (other : ∀ value, Assigns line key value → ¬Belongs lines lines.length group) :
    LastAssigned (lines ++ [line]) group key value ↔ LastAssigned lines group key value := by
  have same : ∀ index value, AssignedAt (lines ++ [line]) group index key value ↔
      AssignedAt lines group index key value := by
    intro index value
    rw [assignedAt_concat]
    exact or_iff_left fun ⟨_, assigns, belongs⟩ => other value assigns belongs
  simp only [LastAssigned, same]

/-- The value that the last line assigns is the one assigned last. -/
theorem lastAssigned_concat_of_assigns {assigned : String} (assigns : Assigns line key assigned)
    (belongs : Belongs lines lines.length group) :
    LastAssigned (lines ++ [line]) group key value ↔ assigned = value := by
  constructor
  · rintro ⟨index, at', last⟩
    rcases assignedAt_concat.1 at' with before | ⟨-, assigns', -⟩
    · exact absurd (assignedAt_concat.2 (.inr ⟨rfl, assigns, belongs⟩)) (last _ before.lt assigned)
    · exact (assigns.unique assigns').2
  · rintro rfl
    refine ⟨lines.length, assignedAt_concat.2 (.inr ⟨rfl, assigns, belongs⟩), fun later above other => ?_⟩
    intro assigned
    have below := assigned.lt
    rw [List.length_append, List.length_singleton] at below
    omega

end OneMore

end SettingsLine

namespace Settings

open SettingsLine

/-- The value of a key of a section, or of a global key. -/
def value? (s : Settings) (group : Option String) (key : String) : Option String :=
  match group with
  | none => s.getGlobal? key
  | some name => s.get? name key

theorem value?_assign (s : Settings) (group group' : Option String) (key key' value : String) :
    (s.assign group key value).value? group' key' =
      if group' = group ∧ key' = key then some value else s.value? group' key' := by
  cases group with
  | none =>
    cases group' with
    | none => simp [value?, assign, getGlobal?, Table.find?_insert]
    | some name' => simp [value?, assign, get?]
  | some name =>
    cases group' with
    | none => simp [value?, assign, getGlobal?]
    | some name' =>
      by_cases same : name' = name
      · subst same
        cases found : s.sections.find? name' <;>
          simp [value?, assign, get?, Table.find?_insert, found]
      · simp [value?, assign, get?, Table.find?_insert, same]

/-- A section is there once something is assigned in it. -/
theorem contains_assign (s : Settings) (group : Option String) (key value name : String) :
    (s.assign group key value).sections.contains name = true ↔
      group = some name ∨ s.sections.contains name = true := by
  cases group with
  | none => simp [assign]
  | some other =>
    rw [assign, Table.contains, Table.find?_insert, Option.some.injEq, eq_comm]
    by_cases same : other = name
    · simp [same, Table.contains]
    · simp [same, Ne.symm same, Table.contains]

/-- The settings that lines make, and the section that they end in. -/
structure Gathered (lines : List (List Char)) (group : Option String) (s : Settings) : Prop where
  belongs : Belongs lines lines.length group
  values : ∀ group key value, s.value? group key = some value ↔ LastAssigned lines group key value
  sections : ∀ name, s.sections.contains name = true ↔
    ∃ index key value, AssignedAt lines (some name) index key value

variable {lines : List (List Char)} {line : List Char} {group : Option String} {s : Settings}

theorem gathered_empty : Gathered [] none empty where
  belongs earlier before := absurd before (Nat.not_lt_zero earlier)
  values group key value := by
    constructor
    · cases group <;> simp [value?, getGlobal?, get?, empty]
    · rintro ⟨index, assigned, -⟩
      exact absurd assigned.lt (Nat.not_lt_zero index)
  sections name := by
    constructor
    · simp [empty, Table.contains]
    · rintro ⟨index, key, value, assigned⟩
      exact absurd assigned.lt (Nat.not_lt_zero index)

/-- A line that assigns nothing leaves the settings as they are. -/
theorem Gathered.other {group' : Option String} (gathered : Gathered lines group s)
    (noAssignment : ∀ key value, ¬Assigns line key value)
    (belongs : Belongs (lines ++ [line]) (lines.length + 1) group') :
    Gathered (lines ++ [line]) group' s where
  belongs := by rwa [List.length_append]
  values group key value := by
    rw [gathered.values, lastAssigned_concat_of_other]
    exact fun value assigns => absurd assigns (noAssignment key value)
  sections name := by
    simp only [gathered.sections, assignedAt_concat, noAssignment, false_and, and_false, or_false]

/-- A line that assigns a value gives the key that value, in the section that it belongs to. -/
theorem Gathered.assigns {key value : String} (gathered : Gathered lines group s)
    (assigns : Assigns line key value) :
    Gathered (lines ++ [line]) group (s.assign group key value) where
  belongs := by
    rw [List.length_append]
    exact belongs_behind_other (fun name header => not_assigns_of_header header key value assigns)
      gathered.belongs
  values group' key' value' := by
    rw [value?_assign]
    by_cases own : group' = group ∧ key' = key
    · obtain ⟨rfl, rfl⟩ := own
      rw [if_pos ⟨rfl, rfl⟩, Option.some.injEq,
        lastAssigned_concat_of_assigns assigns gathered.belongs]
    · rw [if_neg own, gathered.values, lastAssigned_concat_of_other]
      intro other assigns' belongs'
      exact own ⟨belongs'.unique gathered.belongs, (assigns'.unique assigns).1⟩
  sections name := by
    rw [contains_assign, gathered.sections]
    constructor
    · rintro (rfl | ⟨index, key', value', assigned⟩)
      · exact ⟨_, _, _, assignedAt_concat.2 (.inr ⟨rfl, assigns, gathered.belongs⟩)⟩
      · exact ⟨index, key', value', assignedAt_concat.2 (.inl assigned)⟩
    · rintro ⟨index, key', value', assigned⟩
      rcases assignedAt_concat.1 assigned with before | ⟨-, -, belongs⟩
      · exact .inr ⟨index, key', value', before⟩
      · exact .inl (gathered.belongs.unique belongs)

/-- Lines with their numbers, counted from a first one. -/
def numberedFrom (first : Nat) (lines : List (List Char)) : List (Nat × List Char) :=
  (lines.zipIdx first).map fun (line, number) => (number, line)

theorem numberedFrom_cons (first : Nat) (line : List Char) (rest : List (List Char)) :
    numberedFrom first (line :: rest) = (first, line) :: numberedFrom (first + 1) rest := rfl

/-- Well-formed lines in front are gathered before the rest is read. -/
theorem readLines_append (front : List (List Char))
    (wellFormed : ∀ line ∈ front.map trimChars, WellFormed line) :
    ∃ group s, Gathered (front.map trimChars) group s ∧ ∀ rest,
      readLines none empty (numberedFrom 1 (front ++ rest)) =
        readLines group s (numberedFrom (front.length + 1) rest) := by
  induction front using List.reverseRecOn with
  | nil => exact ⟨none, empty, gathered_empty, fun rest => rfl⟩
  | append_singleton front raw inductionHypothesis =>
    rw [List.map_append] at wellFormed ⊢
    obtain ⟨group, s, gathered, reads⟩ :=
      inductionHypothesis fun line member => wellFormed line (List.mem_append_left _ member)
    have goesOn : ∀ rest, readLines none empty (numberedFrom 1 (front ++ [raw] ++ rest)) =
        readLines group s ((front.length + 1, raw) :: numberedFrom (front.length + 1 + 1) rest) := by
      intro rest
      rw [List.append_assoc, List.singleton_append, reads, numberedFrom_cons]
    rw [List.length_append]
    rcases wellFormed (trimChars raw) (by simp) with idle | ⟨name, header⟩ | ⟨key, value, assigns⟩
    · have belongs := belongs_behind_other (not_isHeader_of_idle idle) gathered.belongs
      refine ⟨group, s, gathered.other (not_assigns_of_idle idle) belongs, fun rest => ?_⟩
      rw [goesOn, readLines, read_of_idle idle]
      rfl
    · refine ⟨some name, s, gathered.other (not_assigns_of_header header)
        (belongs_behind_header header), fun rest => ?_⟩
      rw [goesOn, readLines, read_of_header header]
      rfl
    · refine ⟨group, s.assign group key value, gathered.assigns assigns, fun rest => ?_⟩
      rw [goesOn, readLines, read_of_assigns assigns]
      rfl

end Settings

open Settings SettingsLine

/-- Reading a settings text, of whose lines the blanks at their ends are taken off: where lines are not
well formed, the answer is the number and the text of the first of these, and the rule it breaks. Where
all are well formed, each key of each section, and each global key, has the value that was assigned to
it last, there are no other values, and no other sections than those in which something is assigned.

Proof: by induction on the lines read, which make the settings gathered so far and the section for
the next line. A line that is not well formed breaks a rule, and reading it gives that rule. -/
theorem settings_read_exactly (text : String) :
    let lines := (Text.lines text.toList).map trimChars
    (∀ index line, FirstMalformed lines index line → ∃ fault, Breaks line fault ∧
      Settings.read text = .error (.malformed (index + 1) (String.ofList line) fault)) ∧
    ((∀ line ∈ lines, WellFormed line) → ∃ s, Settings.read text = .ok s ∧
      (∀ name key value, s.get? name key = some value ↔ LastAssigned lines (some name) key value) ∧
      (∀ key value, s.getGlobal? key = some value ↔ LastAssigned lines none key value) ∧
      ∀ name, s.sections.contains name = true ↔
        ∃ index key value, AssignedAt lines (some name) index key value) := by
  intro lines
  constructor
  · intro index line first
    obtain ⟨there, malformed, before⟩ := first
    obtain ⟨fault, breaks⟩ := (wellFormed_or_breaks line).resolve_left malformed
    obtain ⟨below, here⟩ := List.getElem?_eq_some_iff.1 there
    rw [List.length_map] at below
    rw [List.getElem_map] at here
    have front : ∀ other ∈ ((Text.lines text.toList).take index).map trimChars, WellFormed other := by
      rw [List.map_take]
      intro other member
      obtain ⟨earlier, bound, rfl⟩ := List.mem_take_iff_getElem.1 member
      exact before earlier (by omega) _ (List.getElem?_eq_getElem (by omega))
    obtain ⟨group, s, -, reads⟩ := readLines_append _ front
    have read := reads ((Text.lines text.toList).drop index)
    rw [List.take_append_drop, List.drop_eq_getElem_cons below, List.length_take,
      Nat.min_eq_left (Nat.le_of_lt below), numberedFrom_cons, readLines, here, read_of_breaks breaks] at read
    exact ⟨fault, breaks, read⟩
  · intro wellFormed
    obtain ⟨group, s, gathered, reads⟩ := readLines_append _ wellFormed
    refine ⟨s, ?_, fun name => gathered.values (some name), gathered.values none, gathered.sections⟩
    have done := reads []
    rw [List.append_nil] at done
    exact done

/-- A section that is opened again after another one, which nothing is assigned in; and the same lines
behind a header that is left open. -/
theorem settings_of_reopened_section :
    let text := "[S]\nk = \"1\"\n[T]\n\n [ S ]\r\nk = 2"
    let lines := (Text.lines text.toList).map trimChars
    let openText := "# head\n [S \n" ++ text
    let openLines := (Text.lines openText.toList).map trimChars
    (∀ line ∈ lines, WellFormed line) ∧ LastAssigned lines (some "S") "k" "2" ∧
      (∃ s, Settings.read text = .ok s ∧ s.get? "S" "k" = some "2") ∧
      FirstMalformed openLines 1 "[S".toList ∧
      ∃ fault, Breaks "[S".toList fault ∧
        Settings.read openText = .error (.malformed 2 "[S" fault) := by
  intro text lines openText openLines
  have cut : lines = ["[S]", "k = \"1\"", "[T]", "", "[ S ]", "k = 2"].map String.toList := by
    decide +kernel
  have wellFormed : ∀ line ∈ lines, WellFormed line := by decide +kernel
  have header : HeaderAt lines 4 "S" :=
    ⟨"[ S ]".toList, by rw [cut]; rfl, " S ".toList, by decide +kernel⟩
  have last : LastAssigned lines (some "S") "k" "2" := by
    refine ⟨5, ⟨⟨"k = 2".toList, by rw [cut]; rfl, ?_⟩, 4, by decide, header, fun between after before =>
      by omega⟩, fun later after other assigned => ?_⟩
    · exact ⟨by decide +kernel, by decide +kernel, "k ".toList, " 2".toList, by decide +kernel⟩
    · have below := assigned.lt
      rw [cut] at below
      exact absurd below (Nat.not_lt.2 after)
  obtain ⟨s, done, values, -⟩ := (settings_read_exactly text).2 wellFormed
  have first : FirstMalformed openLines 1 "[S".toList := by
    refine ⟨by decide +kernel, by decide +kernel, ?_⟩
    intro earlier before other there
    have comment : openLines[0]? = some "# head".toList := by decide +kernel
    rw [Nat.lt_one_iff.1 before, comment] at there
    cases there
    decide +kernel
  exact ⟨wellFormed, last, ⟨s, done, (values "S" "k" "2").2 last⟩, first,
    (settings_read_exactly openText).1 1 _ first⟩

end KeyValueService
