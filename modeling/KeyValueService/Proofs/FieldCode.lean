import KeyValueService.Proofs.ImageReading

/-!
# Fields and lines as codes

A field is the written form of a text, and a line that of an entry. Both are codes: what is written is
read back, and nothing else that has no raw tab or line break is read as the same. Main statement:
`fields_and_lines_decode`, by which escaping and reading are inverse to each other on such fields, the
same holds of entries and their lines, and lines that are written one after the other are found again
as they were.
-/

namespace KeyValueService

open Text

namespace Store

/-- No character of a text breaks a line or a field. -/
def Unbroken (text : List Char) : Prop :=
  ∀ c ∈ text, c ≠ '\t' ∧ c ≠ '\n' ∧ c ≠ '\r'

theorem unbroken_escape (text : List Char) : Unbroken (escape text) :=
  fun _ member => mem_escape member

/-- The letter of an escape is the one that its character is written with. -/
theorem escapeChar_of_mem_escapes {letter c : Char} (stands : (letter, c) ∈ escapes) :
    escapeChar c = ['\\', letter] := by
  simp only [escapes, List.mem_cons, Prod.mk.injEq, List.not_mem_nil, or_false] at stands
  rcases stands with ⟨rfl, rfl⟩ | ⟨rfl, rfl⟩ | ⟨rfl, rfl⟩ | ⟨rfl, rfl⟩ <;> rfl

/-- A field with none of the characters that are to be escaped in it is the one that its text is
written as. -/
theorem escape_of_spells {field text : List Char} (spells : Spells field text)
    (unbroken : Unbroken field) : escape text = field := by
  induction spells with
  | done => rfl
  | @plain c field text unescaped rest inductionHypothesis =>
    obtain ⟨⟨tab, lineFeed, carriageReturn⟩, behind⟩ := List.forall_mem_cons.1 unbroken
    rw [escape, List.flatMap_cons, ← escape, inductionHypothesis behind,
      escapeChar_of_plain unescaped tab lineFeed carriageReturn, List.singleton_append]
  | @escape letter c field text stands rest inductionHypothesis =>
    obtain ⟨-, -, behind⟩ := List.forall_mem_cons.1 unbroken |>.imp_right List.forall_mem_cons.1
    rw [escape, List.flatMap_cons, ← escape, inductionHypothesis behind,
      escapeChar_of_mem_escapes stands, List.cons_append, List.singleton_append]

/-- Of the fields that have no raw tab or line break, one is read as a text: its written form. -/
theorem unescape_unbroken_iff {field text : List Char} :
    Unbroken field ∧ unescape field = some text ↔ field = escape text := by
  constructor
  · rintro ⟨unbroken, reads⟩
    exact (escape_of_spells (unescape_eq_some_iff.1 reads) unbroken).symm
  · rintro rfl
    exact ⟨unbroken_escape text, unescape_escape text⟩

/-- Of the lines that have no raw line break, one is read as an entry: the line it is written as. -/
theorem readEntry_unbroken_iff {line : List Char} {entry : String × String} :
    ('\n' ∉ line ∧ '\r' ∉ line) ∧ readEntry line = some entry ↔ line = entryText entry := by
  constructor
  · rintro ⟨⟨noFeed, noReturn⟩, reads⟩
    obtain ⟨left, right, rfl, first, second, keySpelled, valueSpelled⟩ :=
      readEntry_eq_some_iff.1 reads
    have unbroken : ∀ field, (∀ c ∈ field, c ∈ left ++ '\t' :: right) → '\t' ∉ field →
        Unbroken field := by
      intro field among noTab c member
      refine ⟨?_, ?_, ?_⟩
      · rintro rfl
        exact noTab member
      · rintro rfl
        exact noFeed (among _ member)
      · rintro rfl
        exact noReturn (among _ member)
    have leftWritten := escape_of_spells keySpelled (unbroken left (by simp +contextual) first)
    have rightWritten := escape_of_spells valueSpelled (unbroken right (by simp +contextual) second)
    rw [entryText, leftWritten, rightWritten]
  · rintro rfl
    refine ⟨⟨?_, ?_⟩, readEntry_entryText entry⟩
    · exact fun member => (mem_entryText member).1 rfl
    · exact fun member => (mem_entryText member).2 rfl

theorem entryText_inj {entry other : String × String} :
    entryText entry = entryText other ↔ entry = other := by
  constructor
  · intro same
    have reads := readEntry_entryText entry
    rw [same, readEntry_entryText] at reads
    exact (Option.some.inj reads).symm
  · rintro rfl
    rfl

theorem entryText_ne_nil (entry : String × String) : entryText entry ≠ [] := by
  simp [entryText]

end Store

open Store

/-- Fields and lines are read as what they were written for, and as nothing else.

* A field without a raw tab or line break is read as a text exactly if it is the text escaped. So no
  escaped text has a tab or a line break in it, it is read back, and escaping what was read of such a
  field gives the field again.
* A line without a raw line break is read as an entry exactly if it is the escaped key, a tab and the
  escaped value. Different entries have different lines.
* No line of an entry is empty, and one alone is its own only line. Any number of them, each with its
  line feed, are cut into just these lines, whatever follows.

Proof: reading goes by the grammar of fields, in which each escape has the letter that its character is
written with; the only tab of a line is the one between the fields. -/
theorem fields_and_lines_decode :
    (∀ text field, Unbroken field ∧ unescape field = some text ↔ field = escape text) ∧
    (∀ key value line, ('\n' ∉ line ∧ '\r' ∉ line) ∧ readEntry line = some (key, value) ↔
      line = escape key.toList ++ '\t' :: escape value.toList) ∧
    (∀ entry other, entryLine entry = entryLine other ↔ entry = other) ∧
    (∀ entry, (entryLine entry).toList = entryText entry ++ ['\n'] ∧ entryText entry ≠ [] ∧
      lines (entryText entry) = [entryText entry]) ∧
    ∀ entries rest, lines ((String.join (List.map entryLine entries)).toList ++ rest) =
      entries.map entryText ++ lines rest := by
  refine ⟨fun text field => unescape_unbroken_iff, fun key value line => readEntry_unbroken_iff, ?_, ?_,
    ?_⟩
  · intro entry other
    rw [← String.toList_inj, toList_entryLine, toList_entryLine, List.append_left_inj, entryText_inj]
  · intro entry
    have whole : '\n' ∉ entryText entry := fun member => (mem_entryText member).1 rfl
    exact ⟨toList_entryLine entry, entryText_ne_nil entry,
      lines_unended (entryText_ne_nil entry) whole⟩
  · intro entries rest
    rw [toList_entryLines, lines_entryLines]

/-- A backslash before the letter of an escape is not taken for the escape. -/
example : escape ['\\', 't'] = ['\\', '\\', 't'] ∧ unescape ['\\', '\\', 't'] = some ['\\', 't'] ∧
    unescape ['\\', 't'] = some ['\t'] := by
  decide

end KeyValueService
