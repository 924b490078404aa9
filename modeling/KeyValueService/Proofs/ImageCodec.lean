import KeyValueService.Store.Basic

/-!
# The image of a store read back

Escaping takes every tab and line break out of a field and can be undone, so the line of an
entry is cut at the one tab in it, and an image is cut into exactly the lines of its
entries. Read back in their order the entries make the table again: an image is the image
of one table only, and no history shows in it.
-/

namespace KeyValueService

open Text

namespace Store

/-- No field holds a character that would break a line or a field. -/
theorem mem_escape {s : List Char} {c : Char} (member : c ∈ escape s) :
    c ≠ '\t' ∧ c ≠ '\n' ∧ c ≠ '\r' := by
  obtain ⟨plain, -, part⟩ := List.mem_flatMap.1 member
  unfold escapeChar at part
  by_cases backslash : plain = '\\'
  · rw [if_pos backslash] at part
    simp only [List.mem_cons, List.not_mem_nil, or_false] at part
    rcases part with rfl | rfl <;> decide
  rw [if_neg backslash] at part
  by_cases tab : plain = '\t'
  · rw [if_pos tab] at part
    simp only [List.mem_cons, List.not_mem_nil, or_false] at part
    rcases part with rfl | rfl <;> decide
  rw [if_neg tab] at part
  by_cases lineFeed : plain = '\n'
  · rw [if_pos lineFeed] at part
    simp only [List.mem_cons, List.not_mem_nil, or_false] at part
    rcases part with rfl | rfl <;> decide
  rw [if_neg lineFeed] at part
  by_cases carriageReturn : plain = '\r'
  · rw [if_pos carriageReturn] at part
    simp only [List.mem_cons, List.not_mem_nil, or_false] at part
    rcases part with rfl | rfl <;> decide
  rw [if_neg carriageReturn] at part
  obtain rfl := List.mem_singleton.1 part
  exact ⟨tab, lineFeed, carriageReturn⟩

theorem unescape_cons {c : Char} (plain : c ≠ '\\') (rest : List Char) :
    unescape (c :: rest) = (unescape rest).map (c :: ·) := by
  rw [unescape]
  · simp [plain]
  · simp [plain]

/-- A character that needs no escape is written as it is. -/
theorem escapeChar_of_plain {c : Char} (backslash : c ≠ '\\') (tab : c ≠ '\t') (lineFeed : c ≠ '\n')
    (carriageReturn : c ≠ '\r') : escapeChar c = [c] := by
  rw [escapeChar, if_neg backslash, if_neg tab, if_neg lineFeed, if_neg carriageReturn]

/-- One escaped character is read back, whatever follows. -/
theorem unescape_escapeChar (c : Char) (rest : List Char) :
    unescape (escapeChar c ++ rest) = (unescape rest).map (c :: ·) := by
  by_cases backslash : c = '\\'
  · subst backslash
    rfl
  by_cases tab : c = '\t'
  · subst tab
    rfl
  by_cases lineFeed : c = '\n'
  · subst lineFeed
    rfl
  by_cases carriageReturn : c = '\r'
  · subst carriageReturn
    rfl
  rw [escapeChar_of_plain backslash tab lineFeed carriageReturn, List.singleton_append,
    unescape_cons backslash]

theorem unescape_escape (s : List Char) : unescape (escape s) = some s := by
  induction s with
  | nil => rfl
  | cons c rest inductionHypothesis =>
    rw [escape, List.flatMap_cons, unescape_escapeChar, ← escape, inductionHypothesis]
    rfl

/-- The line of an entry without its line feed. -/
def entryText (entry : String × String) : List Char :=
  escape entry.1.toList ++ '\t' :: escape entry.2.toList

theorem mem_entryText {entry : String × String} {c : Char} (member : c ∈ entryText entry) :
    c ≠ '\n' ∧ c ≠ '\r' := by
  rcases List.mem_append.1 member with inKey | rest
  · exact (mem_escape inKey).2
  · rcases List.mem_cons.1 rest with rfl | inValue
    · decide
    · exact (mem_escape inValue).2

/-- The line of an entry is read as that entry. -/
theorem readEntry_entryText (entry : String × String) : readEntry (entryText entry) = some entry := by
  have keyUncut : ∀ c ∈ escape entry.1.toList, (c == '\t') = false := by
    intro c member
    exact beq_eq_false_iff_ne.2 (mem_escape member).1
  have valueUncut : '\t' ∉ escape entry.2.toList := fun member => (mem_escape member).1 rfl
  have isTab : ('\t' == '\t') = true := rfl
  simp [readEntry, entryText, cut?_append keyUncut isTab, valueUncut, unescape_escape]

theorem toList_entryLine (entry : String × String) :
    (entryLine entry).toList = entryText entry ++ ['\n'] := by
  rw [entryLine, String.toList_ofList, entryText]

theorem toList_entryLines (entries : List (String × String)) :
    (String.join (entries.map entryLine)).toList =
      entries.flatMap fun entry => entryText entry ++ ['\n'] := by
  rw [String.toList_join, List.flatMap_map]
  simp only [toList_entryLine]

/-- Lines of entries, one after the other, are cut into just these lines, whatever follows. -/
theorem lines_entryLines (entries : List (String × String)) (rest : List Char) :
    lines ((entries.flatMap fun entry => entryText entry ++ ['\n']) ++ rest) =
      entries.map entryText ++ lines rest := by
  induction entries with
  | nil => rfl
  | cons entry others inductionHypothesis =>
    have whole : '\n' ∉ entryText entry := fun member => (mem_entryText member).1 rfl
    have bare : (entryText entry).getLast? ≠ some '\r' :=
      fun ends => (mem_entryText (List.mem_of_getLast? ends)).2 rfl
    rw [List.flatMap_cons, List.append_assoc, List.append_assoc, List.singleton_append,
      lines_fed whole bare, inductionHypothesis, List.map_cons, List.cons_append]

end Store

namespace Table

variable {α : Type}

/-- Entries in ascending order, inserted one after the other, are found over what was there. -/
theorem find?_foldl_insert {entries : List (String × α)}
    (sorted : entries.Pairwise fun a b => a.1 < b.1) (table : Table α) (key : String) :
    (entries.foldl (fun table entry => table.insert entry.1 entry.2) table).find? key =
      (lookup? key entries).or (table.find? key) := by
  induction entries generalizing table with
  | nil => rfl
  | cons entry rest inductionHypothesis =>
    have below := List.pairwise_cons.1 sorted
    rw [List.foldl_cons, inductionHypothesis below.2, find?_insert, lookup?]
    by_cases found : key = entry.1
    · subst found
      rw [if_pos rfl, if_pos rfl, lookup?_of_below below.1]
      rfl
    · rw [if_neg found, if_neg found]

/-- The entries of a table, inserted into the empty one, make the table again. -/
theorem foldl_insert_entries (table : Table α) :
    table.entries.foldl (fun table entry => table.insert entry.1 entry.2) empty = table := by
  apply ext_find?
  intro key
  rw [find?_foldl_insert table.sorted, find?_empty, Option.or_none]
  rfl

end Table

namespace Store

/-- An image is read as the table it is the image of. -/
theorem readImage_image (table : Table String) : readImage (image table) = (table, []) := by
  have found : lines (image table).toList = table.entries.map entryText := by
    have cut := lines_entryLines table.entries []
    rwa [lines_nil, List.append_nil, List.append_nil, ← toList_entryLines] at cut
  have reads : readEntry ∘ entryText = some := funext readEntry_entryText
  refine Prod.ext ?_ ?_
  · rw [table_readImage, found, List.filterMap_map, reads, List.filterMap_some,
      Table.foldl_insert_entries]
  · rw [malformed_readImage, List.map_eq_nil_iff, List.filter_eq_nil_iff]
    intro numbered member
    have among := List.mem_map_of_mem (f := Prod.snd) member
    rw [map_snd_numberedLines, found] at among
    obtain ⟨entry, -, same⟩ := List.mem_map.1 among
    simp [← same, readEntry_entryText]

/-- The bytes of a text are read as that text. -/
theorem fromUTF8?_toUTF8 (text : String) : String.fromUTF8? text.toUTF8 = some text :=
  dif_pos text.isValidUTF8

/-- Any text in a file is opened as a store. -/
theorem openAt_of_text {fs : FileSystem} {path : Path} {text : String}
    (there : fs.readBytes path = .ok text.toUTF8) :
    openAt fs path = .ok (⟨some path, (readImage text).1⟩, (readImage text).2.map (⟨·, path⟩)) := by
  rw [openAt, FileSystem.readText, there]
  dsimp only
  rw [fromUTF8?_toUTF8]

/-- An image is opened as the store of its table, and no line of it is reported. -/
theorem openAt_image {fs : FileSystem} {path : Path} {table : Table String}
    (there : fs.readBytes path = .ok (image table).toUTF8) :
    openAt fs path = .ok (⟨some path, table⟩, []) := by
  rw [openAt_of_text there, readImage_image]
  rfl

end Store

end KeyValueService
