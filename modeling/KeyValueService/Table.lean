/-!
# Tables

Finite maps from texts, with their entries in ascending order of the keys and one entry a key. Two
tables that answer every look-up alike are equal (`Table.ext_find?`), so a table has no history.
-/

namespace KeyValueService

universe u

/-- Entries by key, in ascending order of the keys. -/
structure Table (α : Type u) where
  entries : List (String × α)
  sorted : entries.Pairwise fun a b => a.1 < b.1

namespace Table

variable {α : Type u}

/-- The table without entries. -/
def empty : Table α := ⟨[], .nil⟩

instance : Inhabited (Table α) := ⟨empty⟩

/-- Puts an entry in its place, over an entry with the same key. -/
def insertEntry (key : String) (value : α) : List (String × α) → List (String × α)
  | [] => [(key, value)]
  | entry :: rest =>
    if key < entry.1 then (key, value) :: entry :: rest
    else if key = entry.1 then (key, value) :: rest
    else entry :: insertEntry key value rest

/-- The value of the first entry with a key. -/
def lookup? (key : String) : List (String × α) → Option α
  | [] => none
  | entry :: rest => if key = entry.1 then some entry.2 else lookup? key rest

theorem fst_mem_insertEntry {key : String} {value : α} {entries : List (String × α)}
    {entry : String × α} (member : entry ∈ insertEntry key value entries) :
    entry.1 = key ∨ entry ∈ entries := by
  induction entries with
  | nil => simp_all [insertEntry]
  | cons first rest inductionHypothesis =>
    simp only [insertEntry] at member
    split at member
    · simp only [List.mem_cons] at member ⊢
      rcases member with rfl | member
      · exact .inl rfl
      · exact .inr member
    · split at member
      · simp only [List.mem_cons] at member ⊢
        rcases member with rfl | member
        · exact .inl rfl
        · exact .inr (.inr member)
      · simp only [List.mem_cons] at member ⊢
        rcases member with rfl | member
        · exact .inr (.inl rfl)
        · exact (inductionHypothesis member).imp_right .inr

theorem sorted_insertEntry (key : String) (value : α) {entries : List (String × α)}
    (sorted : entries.Pairwise fun a b => a.1 < b.1) :
    (insertEntry key value entries).Pairwise fun a b => a.1 < b.1 := by
  induction entries with
  | nil => simp [insertEntry]
  | cons first rest inductionHypothesis =>
    have below := List.pairwise_cons.1 sorted
    simp only [insertEntry]
    split
    next before =>
      refine List.pairwise_cons.2 ⟨fun entry member => ?_, sorted⟩
      rcases List.mem_cons.1 member with rfl | member
      · exact before
      · exact String.lt_trans before (below.1 entry member)
    next notBefore =>
      split
      next same =>
        refine List.pairwise_cons.2 ⟨fun entry member => ?_, below.2⟩
        exact same ▸ below.1 entry member
      next other =>
        refine List.pairwise_cons.2 ⟨fun entry member => ?_, inductionHypothesis below.2⟩
        rcases fst_mem_insertEntry member with rfl | member
        · exact Std.lt_of_le_of_ne (String.not_lt.1 notBefore) (Ne.symm other)
        · exact below.1 entry member

/-- The value of a key. -/
def find? (t : Table α) (key : String) : Option α :=
  lookup? key t.entries

/-- Whether a key has a value. -/
def contains (t : Table α) (key : String) : Bool :=
  (t.find? key).isSome

/-- Gives a key a value, in place of the one it may have. -/
def insert (t : Table α) (key : String) (value : α) : Table α :=
  ⟨insertEntry key value t.entries, sorted_insertEntry key value t.sorted⟩

/-- Takes the value of a key away, if it has one. -/
def erase (t : Table α) (key : String) : Table α :=
  ⟨t.entries.filter fun entry => entry.1 != key, t.sorted.filter _⟩

/-- The keys in ascending order. -/
def keys (t : Table α) : List String :=
  t.entries.map (·.1)

/-- The number of keys. -/
def size (t : Table α) : Nat :=
  t.entries.length

/-- Whether there are no entries. -/
def isEmpty (t : Table α) : Bool :=
  t.entries.isEmpty

@[simp] theorem find?_empty (key : String) : (empty : Table α).find? key = none := rfl

theorem find?_insert (t : Table α) (key other : String) (value : α) :
    (t.insert key value).find? other = if other = key then some value else t.find? other := by
  obtain ⟨entries, sorted⟩ := t
  simp only [insert, find?]
  clear sorted
  induction entries with
  | nil => rfl
  | cons first rest inductionHypothesis =>
    simp only [insertEntry]
    split
    · simp only [lookup?]
    · split
      next same => subst same; simp only [lookup?]; split <;> rfl
      next notSame => simp only [lookup?, inductionHypothesis]; grind

theorem find?_erase (t : Table α) (key other : String) :
    (t.erase key).find? other = if other = key then none else t.find? other := by
  obtain ⟨entries, sorted⟩ := t
  simp only [erase, find?]
  clear sorted
  induction entries with
  | nil => simp [lookup?]
  | cons first rest inductionHypothesis =>
    by_cases erased : first.1 = key
    · subst erased
      rw [List.filter_cons_of_neg (by simp), inductionHypothesis]
      split
      · rfl
      next different => rw [lookup?, if_neg different]
    · rw [List.filter_cons_of_pos (by simpa using erased), lookup?, lookup?, inductionHypothesis]
      by_cases found : other = first.1
      · subst found
        rw [if_pos rfl, if_neg erased, if_pos rfl]
      · rw [if_neg found, if_neg found]

theorem lookup?_of_below {key : String} {entries : List (String × α)}
    (below : ∀ entry ∈ entries, key < entry.1) : lookup? key entries = none := by
  induction entries with
  | nil => rfl
  | cons first rest inductionHypothesis =>
    have different : key ≠ first.1 := Std.ne_of_lt (below first List.mem_cons_self)
    rw [lookup?, if_neg different]
    exact inductionHypothesis fun entry member => below entry (List.mem_cons_of_mem _ member)

theorem eq_of_lookup? {a b : List (String × α)} (sortedA : a.Pairwise fun a b => a.1 < b.1)
    (sortedB : b.Pairwise fun a b => a.1 < b.1)
    (same : ∀ key, lookup? key a = lookup? key b) : a = b := by
  induction a generalizing b with
  | nil =>
    cases b with
    | nil => rfl
    | cons first rest => simpa [lookup?] using same first.1
  | cons firstA restA inductionHypothesis =>
    cases b with
    | nil => simpa [lookup?] using same firstA.1
    | cons firstB restB =>
      have belowA := List.pairwise_cons.1 sortedA
      have belowB := List.pairwise_cons.1 sortedB
      have notBefore : ¬ firstA.1 < firstB.1 := fun before => by
        have missing : lookup? firstA.1 (firstB :: restB) = none := by
          refine lookup?_of_below fun entry member => ?_
          rcases List.mem_cons.1 member with rfl | member
          · exact before
          · exact String.lt_trans before (belowB.1 entry member)
        have found := same firstA.1
        rw [missing] at found
        simp [lookup?] at found
      have notAfter : ¬ firstB.1 < firstA.1 := fun before => by
        have missing : lookup? firstB.1 (firstA :: restA) = none := by
          refine lookup?_of_below fun entry member => ?_
          rcases List.mem_cons.1 member with rfl | member
          · exact before
          · exact String.lt_trans before (belowA.1 entry member)
        have found := same firstB.1
        rw [missing] at found
        simp [lookup?] at found
      have key : firstA.1 = firstB.1 :=
        String.le_antisymm (String.not_lt.1 notAfter) (String.not_lt.1 notBefore)
      have value : firstA.2 = firstB.2 := by simpa [lookup?, key] using same firstA.1
      have rest : restA = restB := by
        refine inductionHypothesis belowA.2 belowB.2 fun other => ?_
        by_cases first : other = firstA.1
        · subst first
          rw [lookup?_of_below belowA.1, lookup?_of_below (key ▸ belowB.1)]
        · simpa [lookup?, first, key ▸ first] using same other
      rw [Prod.ext key value, rest]

/-- A table is determined by its look-ups. -/
theorem ext_find? {a b : Table α} (same : ∀ key, a.find? key = b.find? key) : a = b := by
  obtain ⟨entriesA, sortedA⟩ := a
  obtain ⟨entriesB, sortedB⟩ := b
  simp only [mk.injEq]
  exact eq_of_lookup? sortedA sortedB same

/-- A value that was replaced, put back. -/
theorem insert_insert_of_find? {t : Table α} {key : String} {old : α}
    (had : t.find? key = some old) (value : α) : (t.insert key value).insert key old = t := by
  refine ext_find? fun other => ?_
  rw [find?_insert, find?_insert]
  by_cases here : other = key
  · rw [if_pos here, here, had]
  · rw [if_neg here, if_neg here]

/-- A value that was not there before, taken away again. -/
theorem erase_insert_of_find? {t : Table α} {key : String} (missing : t.find? key = none)
    (value : α) : (t.insert key value).erase key = t := by
  refine ext_find? fun other => ?_
  rw [find?_erase, find?_insert]
  by_cases here : other = key
  · rw [if_pos here, here, missing]
  · rw [if_neg here, if_neg here]

/-- A value that was taken away, put back. -/
theorem insert_erase_of_find? {t : Table α} {key : String} {old : α}
    (had : t.find? key = some old) : (t.erase key).insert key old = t := by
  refine ext_find? fun other => ?_
  rw [find?_insert, find?_erase]
  by_cases here : other = key
  · rw [if_pos here, here, had]
  · rw [if_neg here, if_neg here]

end Table

end KeyValueService
