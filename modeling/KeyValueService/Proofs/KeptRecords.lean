import KeyValueService.Proofs.ResponseFraming
import KeyValueService.Service.Basic

/-!
# Records kept in memory

A history in which all records are on one line stays so, whatever is added to it or taken from it,
and no sink but the history changes it (`history_deliver`). What it shows of such records are
entries of a block: a record as it is, and the lines of an export, since a line feed is written
behind each record and nowhere else (`isEntry_of_lines`).
-/

namespace KeyValueService

theorem Ring.mem_push {α : Type} {ring : Ring α} {a b : α} (member : b ∈ (ring.push a).toList) :
    b ∈ ring.toList ∨ b = a := by
  rw [Ring.toList_push] at member
  have among := List.mem_of_mem_drop member
  simpa using among

theorem Ring.mem_latest {α : Type} {ring : Ring α} {count : Nat} {a : α}
    (member : a ∈ ring.latest count) : a ∈ ring.toList :=
  List.mem_of_mem_drop (ring.latest_eq_drop count ▸ member)

namespace History

/-- All records that a history keeps are on one line. -/
structure OnOneLine (h : History) : Prop where
  everything : ∀ r ∈ h.everything.toList, r.OnOneLine
  ofSession : ∀ name, ∀ r ∈ (h.ofSession name).toList, r.OnOneLine

variable {h : History} {r : Record}

theorem onOneLine_empty (capacity sessionCapacity : Nat) :
    (empty capacity sessionCapacity).OnOneLine where
  everything _ member := nomatch member
  ofSession _ _ member := nomatch member

theorem onOneLine_clear (h : History) : h.clear.OnOneLine where
  everything _ member := nomatch member
  ofSession _ _ member := nomatch member

theorem OnOneLine.clearSession (oneLine : h.OnOneLine) (name : String) :
    (h.clearSession name).1.OnOneLine where
  everything := oneLine.everything
  ofSession other r member := by
    rw [History.ofSession, History.clearSession, Table.find?_erase] at member
    split at member
    · cases member
    · exact oneLine.ofSession other r member

theorem OnOneLine.add (oneLine : h.OnOneLine) (added : r.OnOneLine) : (h.add r).OnOneLine where
  everything other member := by
    rcases Ring.mem_push member with member | rfl
    · exact oneLine.everything other member
    · exact added
  ofSession name other member := by
    rw [History.ofSession, History.add] at member
    cases own : r.session with
    | none =>
      rw [own] at member
      exact oneLine.ofSession name other member
    | some session =>
      rw [own] at member
      dsimp only at member
      rw [Table.find?_insert] at member
      split at member
      · rcases Ring.mem_push member with member | rfl
        · exact oneLine.ofSession session other member
        · exact added
      · exact oneLine.ofSession name other member

theorem OnOneLine.consume (oneLine : h.OnOneLine) (consumed : r.OnOneLine) :
    (h.consume r).1.OnOneLine := by
  rw [History.consume]
  split
  · exact oneLine.add consumed
  · refine ⟨fun other member => ?_, oneLine.ofSession⟩
    rcases Ring.mem_push member with member | rfl
    · exact oneLine.everything other member
    · exact consumed

/-- The export of a session consists of its records in the form for it, with a line feed behind each. -/
theorem exportOf_eq_join (h : History) (name : String) : h.exportOf name =
    String.join (((h.ofSession name).toList.map Record.exported).map (· ++ "\n")) := by
  rw [exportOf, List.map_map]
  rfl

end History

/-- A sink that is handed a record leaves the history as it is, unless it is the history. -/
theorem history_deliver (outlets : Outlets Unit) (r : Record) (sink : Outlet Empty) :
    let delivered := standardOutlets.reportConsume (standardOutlets.consume sink r outlets)
    delivered.history = outlets.history ∨ delivered.history = (outlets.history.consume r).1 := by
  have reported : ∀ called : Outlets Unit × Outcome,
      (standardOutlets.reportConsume called).history = called.1.history := by
    rintro ⟨after, outcome⟩
    cases outcome <;> rfl
  dsimp only
  rw [reported]
  cases sink with
  | console =>
    left
    change (outlets.callConsole _).1.history = _
    rw [Outlets.callConsole]
    split <;> rfl
  | history => exact .inr rfl
  | file =>
    left
    change (outlets.callFile _).1.history = _
    rw [Outlets.callFile]
    split <;> rfl
  | other sink => exact sink.elim

namespace Text

/-- No line of a text has a line feed. -/
theorem lines_unbroken (s : List Char) : ∀ line ∈ lines s, '\n' ∉ line :=
  (lines_eq_iff.1 rfl : Broken s (lines s)).unbroken

/-- Text up to a line feed makes one line, a carriage return at its end apart. -/
theorem lines_behind {before : List Char} (free : '\n' ∉ before) (rest : List Char) :
    ∃ line, lines (before ++ '\n' :: rest) = line :: lines rest := by
  by_cases returned : before.getLast? = some '\r'
  · obtain ⟨line, rfl⟩ := List.getLast?_eq_some_iff.1 returned
    refine ⟨line, ?_⟩
    rw [List.append_assoc]
    exact lines_returned (fun member => free (List.mem_append_left _ member)) rest
  · exact ⟨before, lines_fed free returned rest⟩

/-- A line keeps its first character if that cannot belong to a line break. -/
theorem lines_behind_cons {c : Char} (ordinary : c ≠ '\n' ∧ c ≠ '\r') {before : List Char}
    (free : '\n' ∉ before) (rest : List Char) :
    ∃ line, lines (c :: (before ++ '\n' :: rest)) = (c :: line) :: lines rest := by
  obtain ⟨line, cut⟩ := lines_behind free rest
  exact ⟨line, lines_cons ordinary.1 (fun ret => absurd ret ordinary.2) cut⟩

end Text

/-- Entries that are written with a line feed each are cut into entries. -/
theorem isEntry_of_lines (texts : List String) (areEntries : ∀ text ∈ texts, IsEntry text) :
    ∀ line ∈ (Text.lines (String.join (texts.map (· ++ "\n"))).toList).map String.ofList,
      IsEntry line := by
  have brackets : ∀ line ∈ Text.lines (String.join (texts.map (· ++ "\n"))).toList,
      line.head? = some '[' := by
    induction texts with
    | nil => exact fun line member => nomatch member
    | cons text rest inductionHypothesis =>
      obtain ⟨first, others⟩ := List.forall_mem_cons.1 areEntries
      obtain ⟨more, shape⟩ := List.head?_eq_some_iff.1 first.bracket
      have free : '\n' ∉ more := fun member =>
        first.unbroken (shape ▸ List.mem_cons_of_mem '[' member)
      have whole : (String.join ((text :: rest).map (· ++ "\n"))).toList =
          '[' :: (more ++ '\n' :: (String.join (rest.map (· ++ "\n"))).toList) := by
        simp [shape]
      obtain ⟨line, cut⟩ := Text.lines_behind_cons
        (by decide : '[' ≠ '\n' ∧ '[' ≠ '\r') free
        (String.join (rest.map (· ++ "\n"))).toList
      rw [whole, cut]
      exact List.forall_mem_cons.2 ⟨rfl, inductionHypothesis others⟩
  intro text member
  obtain ⟨line, among, rfl⟩ := List.mem_map.1 member
  refine ⟨unbroken_ofList (Text.lines_unbroken _ line among), ?_⟩
  rw [String.toList_ofList]
  exact brackets line among

theorem Record.isEntry_plain {r : Record} (oneLine : r.OnOneLine) : IsEntry r.plain :=
  ⟨r.unbroken_plain oneLine, by rw [Record.plain, String.append_assoc]; exact r.head?_head _ _⟩

theorem Record.isEntry_exported {r : Record} (oneLine : r.OnOneLine) : IsEntry r.exported :=
  ⟨r.unbroken_exported oneLine, r.head?_head _ _⟩

end KeyValueService
