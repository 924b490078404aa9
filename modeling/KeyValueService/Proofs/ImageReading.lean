import KeyValueService.Host
import KeyValueService.Proofs.ImageCodec
import Mathlib.Data.List.Induction

/-!
# What a file of entries says

An arbitrary text is read as a store, also one that no store has written. What its lines have to look
like is said here without a word on how they are read: a field spells a text by plain characters and
escapes of two characters, and the line of an entry has two such fields with its only tab between them.
Main statement: `open_reads_entries`. Every text can be opened, the last entry of a key counts, and the
lines that are neither empty nor entries are reported in their order and change nothing.
-/

namespace KeyValueService

open Text

namespace Store

/-- The letters that may follow a backslash, and what they stand for. -/
def escapes : List (Char × Char) :=
  [('\\', '\\'), ('t', '\t'), ('n', '\n'), ('r', '\r')]

/-- A field, read from left to right, spells a text: every character but the backslash stands for
itself, and a backslash stands for something together with the letter after it. -/
inductive Spells : List Char → List Char → Prop
  | done : Spells [] []
  | plain {c : Char} {field text : List Char} (unescaped : c ≠ '\\') (rest : Spells field text) :
      Spells (c :: field) (c :: text)
  | escape {letter c : Char} {field text : List Char} (stands : (letter, c) ∈ escapes)
      (rest : Spells field text) : Spells ('\\' :: letter :: field) (c :: text)

/-- A line with two fields and one tab, which is between them. The fields spell a key and its value. -/
def IsEntryLine (line : List Char) (key value : String) : Prop :=
  ∃ left right, line = left ++ '\t' :: right ∧ '\t' ∉ left ∧ '\t' ∉ right ∧
    Spells left key.toList ∧ Spells right value.toList

/-- A line is that of an entry, whatever the entry is. -/
def WellFormed (line : List Char) : Prop :=
  ∃ key value, IsEntryLine line key value

/-- A line gives a key its value, and no line after it gives that key one. -/
def LastEntry (lines : List (List Char)) (key value : String) : Prop :=
  ∃ before line after, lines = before ++ line :: after ∧ IsEntryLine line key value ∧
    ∀ later ∈ after, ∀ other, ¬IsEntryLine later key other

/-! ## One line -/

theorem escaped?_eq_some_iff {letter c : Char} :
    escaped? letter = some c ↔ (letter, c) ∈ escapes := by
  simp only [escapes, List.mem_cons, Prod.mk.injEq, List.not_mem_nil, or_false]
  unfold escaped?
  grind

/-- A field is read as the text that it spells. -/
theorem unescape_eq_some_iff {field text : List Char} :
    unescape field = some text ↔ Spells field text := by
  constructor
  · intro reads
    fun_induction unescape field generalizing text with
    | case1 =>
      cases reads
      exact .done
    | case2 => cases reads
    | case3 letter rest unknown => cases reads
    | case4 letter rest c stands inductionHypothesis =>
      obtain ⟨tail, spelled, rfl⟩ := Option.map_eq_some_iff.1 reads
      exact .escape (escaped?_eq_some_iff.1 stands) (inductionHypothesis spelled)
    | case5 c rest notLast notEscape inductionHypothesis =>
      obtain ⟨tail, spelled, rfl⟩ := Option.map_eq_some_iff.1 reads
      have unescaped : c ≠ '\\' := by
        rintro rfl
        cases rest with
        | nil => exact notLast rfl rfl
        | cons letter rest => exact notEscape letter rest rfl rfl
      exact .plain unescaped (inductionHypothesis spelled)
  · intro spells
    induction spells with
    | done => rfl
    | plain unescaped rest inductionHypothesis =>
      rw [unescape_cons unescaped, inductionHypothesis]
      rfl
    | escape stands rest inductionHypothesis =>
      rw [unescape, escaped?_eq_some_iff.2 stands, inductionHypothesis]
      rfl

/-- A line with two fields is read field by field. -/
theorem readEntry_of_fields {left right : List Char} (first : '\t' ∉ left) (second : '\t' ∉ right) :
    readEntry (left ++ '\t' :: right) = (unescape left).bind fun key =>
      (unescape right).map fun value => (String.ofList key, String.ofList value) := by
  have cut : cut? (· == '\t') (left ++ '\t' :: right) = some (left, right) :=
    cut?_eq_some_iff.2 ⟨rfl, first⟩
  cases key : unescape left with
  | none => simp [readEntry, cut, second, key]
  | some key => cases value : unescape right <;> simp [readEntry, cut, second, key, value]

/-- A line that is read as an entry has two fields. -/
theorem exists_fields_of_readEntry {line : List Char} (reads : readEntry line ≠ none) :
    ∃ left right, line = left ++ '\t' :: right ∧ '\t' ∉ left ∧ '\t' ∉ right := by
  cases cut : cut? (· == '\t') line with
  | none => simp [readEntry, cut] at reads
  | some fields =>
    obtain ⟨left, right⟩ := fields
    obtain ⟨parts, first⟩ := cut?_eq_some_iff.1 cut
    refine ⟨left, right, parts, first, ?_⟩
    intro second
    simp [readEntry, cut, second] at reads

/-- A line is read as the entry that it is the line of. -/
theorem readEntry_eq_some_iff {line : List Char} {key value : String} :
    readEntry line = some (key, value) ↔ IsEntryLine line key value := by
  constructor
  · intro reads
    obtain ⟨left, right, rfl, first, second⟩ :=
      exists_fields_of_readEntry (by rw [reads]; exact Option.some_ne_none _)
    rw [readEntry_of_fields first second] at reads
    obtain ⟨keyText, ofLeft, reads⟩ := Option.bind_eq_some_iff.1 reads
    obtain ⟨valueText, ofRight, entry⟩ := Option.map_eq_some_iff.1 reads
    cases entry
    refine ⟨left, right, rfl, first, second, ?_, ?_⟩
    · rw [String.toList_ofList]
      exact unescape_eq_some_iff.1 ofLeft
    · rw [String.toList_ofList]
      exact unescape_eq_some_iff.1 ofRight
  · rintro ⟨left, right, rfl, first, second, keySpelled, valueSpelled⟩
    rw [readEntry_of_fields first second, unescape_eq_some_iff.2 keySpelled,
      unescape_eq_some_iff.2 valueSpelled]
    simp only [Option.bind_some, Option.map_some, String.ofList_toList]

theorem isSome_readEntry_iff {line : List Char} :
    (readEntry line).isSome = true ↔ WellFormed line := by
  rw [Option.isSome_iff_exists, Prod.exists]
  simp only [readEntry_eq_some_iff, WellFormed]

instance (line : List Char) : Decidable (WellFormed line) :=
  decidable_of_iff _ isSome_readEntry_iff

/-! ## All lines -/

/-- With one more line behind the others, a key has the value that the line gives it, or the one from
before if the line does not give it any. -/
theorem lastEntry_concat {lines : List (List Char)} {line : List Char} {key value : String} :
    LastEntry (lines ++ [line]) key value ↔ IsEntryLine line key value ∨
      (∀ other, ¬IsEntryLine line key other) ∧ LastEntry lines key value := by
  constructor
  · rintro ⟨before, found, after, split, entry, last⟩
    cases after using List.reverseRecOn with
    | nil =>
      obtain ⟨-, same⟩ := List.append_inj' split rfl
      cases same
      exact .inl entry
    | append_singleton after behind =>
      rw [← List.cons_append, ← List.append_assoc] at split
      obtain ⟨rfl, same⟩ := List.append_inj' split rfl
      cases same
      refine .inr ⟨last line (by simp), before, found, after, rfl, entry, ?_⟩
      intro later member
      exact last later (List.mem_append_left _ member)
  · rintro (entry | ⟨other, before, found, after, rfl, entry, last⟩)
    · exact ⟨lines, line, [], rfl, entry, nofun⟩
    · refine ⟨before, found, after ++ [line], by simp, entry, ?_⟩
      intro later member
      rcases List.mem_append.1 member with earlier | final
      · exact last later earlier
      · obtain rfl := List.mem_singleton.1 final
        exact other

/-- Entries taken over in the order of their lines: the last one of a key is found. -/
theorem find?_entries_iff {lines : List (List Char)} {key value : String} :
    ((lines.filterMap readEntry).foldl (fun table entry => table.insert entry.1 entry.2)
        Table.empty).find? key = some value ↔ LastEntry lines key value := by
  induction lines using List.reverseRecOn with
  | nil =>
    have noLine : ¬LastEntry [] key value := by
      rintro ⟨before, line, after, split, -⟩
      simp at split
    simp [noLine]
  | append_singleton lines line inductionHypothesis =>
    rw [lastEntry_concat, ← inductionHypothesis, List.filterMap_append, List.foldl_append]
    simp only [← readEntry_eq_some_iff]
    cases reads : readEntry line with
    | none => simp [reads]
    | some entry =>
      obtain ⟨ownKey, ownValue⟩ := entry
      rw [List.filterMap_cons_some reads, List.filterMap_nil, List.foldl_cons, List.foldl_nil,
        Table.find?_insert]
      by_cases own : key = ownKey
      · simp [own]
      · simp [own, Ne.symm own]

/-- The entries of lines are those of the well-formed ones. -/
theorem filterMap_readEntry (lines : List (List Char)) :
    (lines.filter fun line => decide (WellFormed line)).filterMap readEntry =
      lines.filterMap readEntry := by
  rw [List.filterMap_filter]
  congr 1
  funext line
  by_cases wellFormed : WellFormed line
  · simp [wellFormed]
  · have unread : readEntry line = none := by
      rwa [← isSome_readEntry_iff, Bool.not_eq_true, Option.isSome_eq_false_iff,
        Option.isNone_iff_eq_none] at wellFormed
    simp [wellFormed, unread]

/-- The numbers of the lines that are neither empty nor well formed, in their order. All lines are
counted, from one. -/
def malformedNumbers (lines : List (List Char)) : List Nat :=
  ((lines.zipIdx 1).filter fun (line, _) => decide (line ≠ [] ∧ ¬WellFormed line)).map Prod.snd

theorem malformed_readImage_eq (text : String) :
    (readImage text).2 = malformedNumbers (lines text.toList) := by
  have same : ∀ line : List Char,
      (!line.isEmpty && (readEntry line).isNone) = decide (line ≠ [] ∧ ¬WellFormed line) := by
    intro line
    rw [Bool.eq_iff_iff]
    simp [← isSome_readEntry_iff]
  rw [malformed_readImage, numberedLines, List.filter_map, List.map_map]
  simp only [Function.comp_def, same, malformedNumbers]

/-- A store is what the lines of its file say. The lines that are neither empty nor well formed are
reported, and standard error is told a warning for each of them. -/
structure ReadsAs (path : Path) (lines : List (List Char)) (store : Store)
    (reports : List MalformedLine) : Prop where
  own : store.path = some path
  entries : ∀ key value, store.get? key = some value ↔ LastEntry lines key value
  reported : reports = (malformedNumbers lines).map (⟨·, path⟩)
  told : ∀ host : Host, (host.reportAll (reports.map MalformedLine.message)).reports =
    host.reports ++ (malformedNumbers lines).map fun number =>
      "[Store] ignoring malformed line " ++ toString number ++ " in " ++ quoted path.text

end Store

open Store

/-- Whatever text a file holds, a store can be opened from it. It has the last value that a line gives to
a key, and no other keys, and the lines that are neither empty nor the line of an entry are reported in
their order. They change nothing: a file with the same well-formed lines opens as the same store.

Proof: a line is read as an entry exactly if it is well formed, so the table is made by the entries of
the well-formed lines one after the other, and the last one of a key stays. -/
theorem open_reads_entries {fs : FileSystem} {path : Path} {text : String}
    (there : fs.readBytes path = .ok text.toUTF8) :
    ∃ lines store reports, Broken text.toList lines ∧ openAt fs path = .ok (store, reports) ∧
      ReadsAs path lines store reports ∧
      ∀ (fs' : FileSystem) text' lines', fs'.readBytes path = .ok (String.toUTF8 text') →
        Broken text'.toList lines' → lines'.filter WellFormed = lines.filter WellFormed →
          ∃ reports', openAt fs' path = .ok (store, reports') := by
  refine ⟨lines text.toList, _, _, lines_eq_iff.1 rfl, openAt_of_text there,
    ⟨rfl, ?_, ?_, ?_⟩, ?_⟩
  · intro key value
    rw [get?, table_readImage]
    exact find?_entries_iff
  · rw [malformed_readImage_eq]
  · intro host
    rw [malformed_readImage_eq, List.map_map]
    rfl
  · intro fs' text' lines' there' broken same
    obtain rfl := lines_eq_iff.2 broken
    have tables : (readImage text').1 = (readImage text).1 := by
      rw [table_readImage, table_readImage, ← filterMap_readEntry, same, filterMap_readEntry]
    rw [openAt_of_text there', tables]
    exact ⟨_, rfl⟩

/-- A file with both kinds of line breaks, an empty line, three malformed lines and no line break at its
end. -/
def mixedText : String :=
  "k\t1\r\n\nbad\nk\t\\q\na\tb\tc\n\\t\t\\\\\nk\t2"

/-- A file system with that file. -/
def mixedFiles : FileSystem where
  entries := [(["keys"], .file 0 mixedText.toUTF8)]
  workingDirectory := []
  nextNumber := 1
  full := false

/-- The mixed file gives two keys a value, and its third, fourth and fifth line are reported. -/
theorem open_mixed_file :
    mixedFiles.readBytes ⟨"keys"⟩ = .ok mixedText.toUTF8 ∧
      ∃ lines store reports, Broken mixedText.toList lines ∧
        openAt mixedFiles ⟨"keys"⟩ = .ok (store, reports) ∧ ReadsAs ⟨"keys"⟩ lines store reports ∧
        store.get? "k" = some "2" ∧ store.get? "\t" = some "\\" ∧
        reports.map (·.number) = [3, 4, 5] := by
  have there : mixedFiles.readBytes ⟨"keys"⟩ = .ok mixedText.toUTF8 := by rfl
  obtain ⟨parts, store, reports, broken, opened, reads, -⟩ := open_reads_entries there
  rw [openAt_of_text there] at opened
  cases opened
  exact ⟨there, parts, _, _, broken, openAt_of_text there, reads, by decide +kernel, by decide +kernel,
    by decide +kernel⟩

end KeyValueService
