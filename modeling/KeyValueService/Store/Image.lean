import KeyValueService.Disk.Path
import KeyValueService.Store.Field
import KeyValueService.Table
import KeyValueService.Text.Lines
import KeyValueService.Text.Pieces
import KeyValueService.Text.Quoted

/-!
# The image of a store

The text that keeps a table of keys and values in a file: a line for each key, in ascending order,
with key and value escaped and a tab between them. A file is read line by line; empty lines are
skipped, a line of any other form is reported and skipped, and the last line of a key counts.
-/

namespace KeyValueService.Store

open Text

/-- The line of an entry, with its line feed. -/
def entryLine (entry : String × String) : String :=
  String.ofList (escape entry.1.toList ++ '\t' :: escape entry.2.toList ++ ['\n'])

/-- The image of a table. -/
def image (table : Table String) : String :=
  String.join (table.entries.map entryLine)

/-- The entry of a line, if the line has the form of one. -/
def readEntry (line : List Char) : Option (String × String) := do
  let (left, right) ← cut? (· == '\t') line
  if '\t' ∈ right then none
  let key ← unescape left
  let value ← unescape right
  some (String.ofList key, String.ofList value)

/-- A line of a file that was skipped because it is no entry. -/
structure MalformedLine where
  number : Nat
  path : Path
  deriving DecidableEq, Repr

/-- The wording of the report. -/
def MalformedLine.message (m : MalformedLine) : String :=
  "[Store] ignoring malformed line " ++ toString m.number ++ " in " ++ quoted m.path.text

/-- The table of numbered lines, on top of the one read so far, and the numbers of malformed lines. -/
def readEntries (table : Table String) : List (Nat × List Char) → Table String × List Nat
  | [] => (table, [])
  | (_, []) :: rest => readEntries table rest
  | (number, line) :: rest =>
    match readEntry line with
    | some (key, value) => readEntries (table.insert key value) rest
    | none =>
      let (table, malformed) := readEntries table rest
      (table, number :: malformed)

/-- The table of an image, and the numbers of its malformed lines. -/
def readImage (text : String) : Table String × List Nat :=
  readEntries .empty (numberedLines text)

/-- The entries are taken over one after the other, and the other lines change nothing. -/
theorem readEntries_eq (table : Table String) (numbered : List (Nat × List Char)) :
    readEntries table numbered =
      ((numbered.filterMap fun (_, line) => readEntry line).foldl
          (fun table entry => table.insert entry.1 entry.2) table,
        (numbered.filter fun (_, line) => !line.isEmpty && (readEntry line).isNone).map Prod.fst) := by
  fun_induction readEntries table numbered with
  | case1 => rfl
  | case2 table number rest inductionHypothesis =>
    rw [inductionHypothesis]
    rfl
  | case3 table number line rest nonempty key value reads inductionHypothesis =>
    rw [inductionHypothesis]
    simp [reads]
  | case4 table number line rest nonempty reads after malformed behind inductionHypothesis =>
    rw [inductionHypothesis] at behind
    cases behind
    have isEmpty : line.isEmpty = false := List.isEmpty_eq_false_iff.2 nonempty
    simp [reads, isEmpty]

/-- The table of an image has the entries of its lines. -/
theorem table_readImage (text : String) :
    (readImage text).1 = ((lines text.toList).filterMap readEntry).foldl
      (fun table entry => table.insert entry.1 entry.2) .empty := by
  rw [readImage, readEntries_eq, ← map_snd_numberedLines, List.filterMap_map]
  rfl

/-- The malformed lines of an image are those that are neither empty nor the line of an entry. -/
theorem malformed_readImage (text : String) :
    (readImage text).2 = ((numberedLines text).filter fun (_, line) =>
      !line.isEmpty && (readEntry line).isNone).map Prod.fst := by
  rw [readImage, readEntries_eq]

end KeyValueService.Store
