/-!
# Slots

The slots of a ring, filled in order and then written over from the first one on. Where the next item
goes and where the oldest one is are kept as positions that wrap around at the capacity; every access
to a slot and every remainder taken is checked, and a check that fails is a fault.

No operation on slots in order has a fault (`Ordered.push`, `Ordered.latest`): what is
in them, oldest first, is a list to which `push` appends and whose last items `latest` reads. The sums
reduced to a position are below twice the capacity, so that they fit a word wherever the slots fit the
memory.
-/

namespace KeyValueService

universe u

/-- Why an operation on slots has no result. -/
inductive SlotFault
  | outOfRange
  | divisionByZero
  deriving DecidableEq, Repr

/-- Slots in use, the slot that the next item goes to, that of the oldest item, how many items there
are, and how many there can be. -/
structure Slots (α : Type u) where
  items : Array α
  head : Nat
  tail : Nat
  size : Nat
  capacity : Nat

namespace Slots

variable {α : Type u}

/-- Slots without items. None is in use before an item is put into it. -/
def empty (capacity : Nat) : Slots α := ⟨#[], 0, 0, 0, capacity⟩

/-- The position some steps after another one, the first position after the last. -/
def after (s : Slots α) (position steps : Nat) : Except SlotFault Nat :=
  if s.capacity = 0 then .error .divisionByZero else .ok ((position + steps) % s.capacity)

/-- The item at a position. -/
def read (s : Slots α) (position : Nat) : Except SlotFault α :=
  match s.items[position]? with
  | none => .error .outOfRange
  | some a => .ok a

/-- The items with another one at a position. -/
def write (s : Slots α) (position : Nat) (a : α) : Except SlotFault (Array α) :=
  if used : position < s.items.size then .ok (s.items.set position a used) else .error .outOfRange

/-- Adds an item: in one more slot as long as there are fewer than the capacity, then in place of the
oldest item. A capacity of zero leaves no place for it. -/
def push (s : Slots α) (a : α) : Except SlotFault (Slots α) :=
  if s.capacity = 0 then .ok s
  else if s.size < s.capacity then
    match s.after s.head 1 with
    | .error e => .error e
    | .ok head => .ok { s with items := s.items.push a, size := s.size + 1, head }
  else
    match s.write s.head a with
    | .error e => .error e
    | .ok items =>
      match s.after s.head 1 with
      | .error e => .error e
      | .ok head => .ok { s with items, head, tail := head }

/-- The item some steps after a position. -/
def readAfter (s : Slots α) (position steps : Nat) : Except SlotFault α :=
  match s.after position steps with
  | .error e => .error e
  | .ok reached => s.read reached

/-- The last `n` items, oldest first; all of them if there are fewer. -/
def latest (s : Slots α) (n : Nat) : Except SlotFault (List α) :=
  let n := min n s.size
  if n = 0 then .ok []
  else
    match s.after s.tail (s.size - n) with
    | .error e => .error e
    | .ok start => (List.range n).mapM (s.readAfter start)

/-- Removes the items and keeps the capacity. -/
def clear (s : Slots α) : Slots α :=
  { s with items := #[], head := 0, tail := 0, size := 0 }

/-- What is in the slots, oldest first. -/
def contents (s : Slots α) : List α :=
  s.items.toList.drop s.tail ++ s.items.toList.take s.tail

/-- How the positions go with the slots in use: until all are in use the oldest item is in the first
and the next one goes behind the last; from then on the next item replaces the oldest. -/
structure Ordered (s : Slots α) : Prop where
  items : s.items.size = s.size
  size_le : s.size ≤ s.capacity
  growing : s.size < s.capacity → s.tail = 0 ∧ s.head = s.size
  full : s.size = s.capacity → s.head = s.tail
  tail_lt : 0 < s.capacity → s.tail < s.capacity

theorem ordered_empty (capacity : Nat) : (empty capacity : Slots α).Ordered where
  items := rfl
  size_le := Nat.zero_le _
  growing _ := ⟨rfl, rfl⟩
  full _ := rfl
  tail_lt positive := positive

theorem length_contents {s : Slots α} (ordered : s.Ordered) : s.contents.length = s.size := by
  have inUse := ordered.items
  simp only [contents, List.length_append, List.length_drop, List.length_take, Array.length_toList]
  rcases Nat.lt_or_eq_of_le ordered.size_le with room | noRoom
  · rw [(ordered.growing room).1]
    omega
  · rcases Nat.eq_zero_or_pos s.capacity with none | some
    · omega
    · have inside := ordered.tail_lt some
      omega

/-- Where a list is cut in two and the second part put in front, an item is found by going on from the
cut, and back to the first item from the last. -/
theorem getElem?_wrapped (items : List α) {cut position : Nat} (inside : cut ≤ items.length)
    (below : position < items.length) :
    (items.drop cut ++ items.take cut)[position]? = items[(cut + position) % items.length]? := by
  rw [List.getElem?_append, List.length_drop]
  by_cases front : position < items.length - cut
  · rw [if_pos front, List.getElem?_drop, Nat.mod_eq_of_lt (by omega)]
  · have wrapped : cut + position - items.length = position - (items.length - cut) := by omega
    have reduced : (cut + position) % items.length = position - (items.length - cut) := by
      rw [Nat.mod_eq_sub_mod (by omega), wrapped, Nat.mod_eq_of_lt (by omega)]
    rw [if_neg front, reduced, List.getElem?_take_of_lt (by omega)]

/-- Writing over the oldest item and starting behind it drops that item and appends the new one. -/
theorem drop_set_append_take (before after : List α) (oldest a : α) :
    let written := (before ++ oldest :: after).set before.length a
    let start := (before.length + 1) % (before ++ oldest :: after).length
    written.drop start ++ written.take start = after ++ (before ++ [a]) := by
  cases after with
  | nil => simp
  | cons next rest =>
    have behind : (before.length + 1) % (before ++ oldest :: next :: rest).length =
        before.length + 1 := by
      apply Nat.mod_eq_of_lt
      simp
    simp only [behind]
    simp [List.take_append, List.take_of_length_le]

/-- While there is room, an item goes behind the others. -/
theorem Ordered.push_of_room {s : Slots α} (ordered : s.Ordered) (room : s.size < s.capacity) (a : α) :
    ∃ pushed, s.push a = .ok pushed ∧ pushed.Ordered ∧ pushed.capacity = s.capacity ∧
      pushed.contents = s.contents ++ [a] := by
  have positive : s.capacity ≠ 0 := by omega
  obtain ⟨first, next⟩ := ordered.growing room
  have inUse := ordered.items
  refine ⟨⟨s.items.push a, (s.head + 1) % s.capacity, s.tail, s.size + 1, s.capacity⟩, ?_, ?_, rfl, ?_⟩
  · rw [push, if_neg positive, if_pos room, after, if_neg positive]
  · constructor
    case items => rw [Array.size_push, inUse]
    case size_le => exact room
    case growing =>
      intro more
      exact ⟨first, by rw [next]; exact Nat.mod_eq_of_lt more⟩
    case full =>
      intro last
      dsimp only at last ⊢
      rw [next, last, Nat.mod_self, first]
    case tail_lt => exact ordered.tail_lt
  · simp [contents, first]

/-- Without room, an item replaces the oldest one. -/
theorem Ordered.push_of_full {s : Slots α} (ordered : s.Ordered) (full : s.size = s.capacity)
    (positive : 0 < s.capacity) (a : α) :
    ∃ pushed, s.push a = .ok pushed ∧ pushed.Ordered ∧ pushed.capacity = s.capacity ∧
      pushed.contents = s.contents.drop 1 ++ [a] := by
  have some : s.capacity ≠ 0 := Nat.ne_of_gt positive
  have inUse := ordered.items
  have oldest := ordered.full full
  have inside : s.tail < s.items.size := by
    have := ordered.tail_lt positive
    omega
  refine ⟨⟨s.items.set s.tail a inside, (s.tail + 1) % s.capacity, (s.tail + 1) % s.capacity, s.size,
    s.capacity⟩, ?_, ?_, rfl, ?_⟩
  · rw [push, if_neg some, if_neg (by omega), write, oldest, dif_pos inside]
    dsimp only
    rw [after, if_neg some]
  · constructor
    case items => rw [Array.size_set, inUse]
    case size_le => exact ordered.size_le
    case growing =>
      intro room
      dsimp only at room
      omega
    case full => exact fun _ => rfl
    case tail_lt => exact fun _ => Nat.mod_lt _ positive
  · have written := drop_set_append_take (s.items.toList.take s.tail)
      (s.items.toList.drop (s.tail + 1)) s.items.toList[s.tail] a
    have inList : s.tail < s.items.toList.length := by simpa using inside
    rw [List.getElem_cons_drop, List.take_append_drop, List.length_take,
      Nat.min_eq_left (Nat.le_of_lt inList), Array.length_toList, inUse, full] at written
    simp only [contents, Array.toList_set] at written ⊢
    rw [written, ← List.getElem_cons_drop inList]
    simp

/-- An item is added without a fault. It joins the others, and once there is no more room the oldest
one leaves. -/
theorem Ordered.push {s : Slots α} (ordered : s.Ordered) (a : α) :
    ∃ pushed, s.push a = .ok pushed ∧ pushed.Ordered ∧ pushed.capacity = s.capacity ∧
      pushed.contents = (s.contents ++ [a]).drop (s.size + 1 - s.capacity) := by
  have length := length_contents ordered
  rcases Nat.lt_or_eq_of_le ordered.size_le with room | full
  · have noExcess : s.size + 1 - s.capacity = 0 := by omega
    rw [noExcess, List.drop_zero]
    exact ordered.push_of_room room a
  have excess : s.size + 1 - s.capacity = 1 := by omega
  rw [excess]
  rcases Nat.eq_zero_or_pos s.capacity with none | some
  · have nothing : s.contents = [] := List.eq_nil_of_length_eq_zero (by omega)
    refine ⟨s, ?_, ordered, rfl, by simp [nothing]⟩
    rw [Slots.push, if_pos none]
  · rw [List.drop_append_of_le_length (by omega)]
    exact ordered.push_of_full full some a

theorem Ordered.of_push {s pushed : Slots α} (ordered : s.Ordered) {a : α}
    (done : s.push a = .ok pushed) : pushed.Ordered := by
  obtain ⟨pushed', done', ordered', -, -⟩ := ordered.push a
  rw [done, Except.ok.injEq] at done'
  rw [done']
  exact ordered'

theorem Ordered.push_ne_error {s : Slots α} (ordered : s.Ordered) {a : α} {fault : SlotFault}
    (failed : s.push a = .error fault) : False := by
  obtain ⟨pushed, done, -⟩ := ordered.push a
  rw [failed] at done
  cases done

/-- A position some steps after another one that has been reduced needs no reducing in between. -/
theorem after_after (s : Slots α) (position steps more : Nat) :
    s.after ((position + steps) % s.capacity) more = s.after position (steps + more) := by
  rw [after, after, Nat.mod_add_mod, Nat.add_assoc]

/-- Steps from the oldest item lead to an item as long as they are fewer than the items. -/
theorem Ordered.read_after {s : Slots α} (ordered : s.Ordered) (steps : Nat) (below : steps < s.size) :
    ∃ position, s.after s.tail steps = .ok position ∧ s.items[position]? = s.contents[steps]? := by
  have inUse := ordered.items
  have bound := ordered.size_le
  have positive : 0 < s.capacity := by omega
  refine ⟨(s.tail + steps) % s.capacity, by rw [after, if_neg (Nat.ne_of_gt positive)], ?_⟩
  rw [← Array.getElem?_toList, contents]
  rcases Nat.lt_or_eq_of_le bound with room | full
  · rw [(ordered.growing room).1, Nat.zero_add, Nat.mod_eq_of_lt (Nat.lt_trans below room)]
    simp
  · have length : s.items.toList.length = s.capacity := by rw [Array.length_toList, inUse, full]
    have inside := ordered.tail_lt positive
    rw [getElem?_wrapped s.items.toList (by omega) (by omega), length]

/-- Items that are each read without a fault are read without a fault. -/
theorem mapM_range' {f : Nat → Except SlotFault α} {items : List α} (first : Nat)
    (found : ∀ index, (inside : index < items.length) → f (first + index) = .ok items[index]) :
    (List.range' first items.length).mapM f = .ok items := by
  induction items generalizing first with
  | nil => rfl
  | cons item rest inductionHypothesis =>
    have own : f first = .ok item := found 0 (Nat.succ_pos _)
    have others := inductionHypothesis (first + 1) fun index inside => by
      rw [Nat.add_assoc, Nat.add_comm 1]
      exact found (index + 1) (Nat.succ_lt_succ inside)
    rw [List.length_cons, List.range'_succ, List.mapM_cons, own, others]
    rfl

/-- The last items are read without a fault. -/
theorem Ordered.latest {s : Slots α} (ordered : s.Ordered) (n : Nat) :
    s.latest n = .ok (s.contents.drop (s.size - n)) := by
  have length := length_contents ordered
  rw [Slots.latest]
  by_cases nothing : min n s.size = 0
  · rw [if_pos nothing, List.drop_eq_nil_of_le (by omega)]
  have positive : s.capacity ≠ 0 := by
    have bound := ordered.size_le
    omega
  have skipped : s.size - min n s.size = s.size - n := by omega
  have count : min n s.size = (s.contents.drop (s.size - n)).length := by
    rw [List.length_drop, length]
    omega
  rw [if_neg nothing, after, if_neg positive, skipped]
  dsimp only
  rw [List.range_eq_range', count]
  refine mapM_range' 0 fun index inside => ?_
  obtain ⟨position, reached, there⟩ := ordered.read_after (s.size - n + index) (by omega)
  rw [Nat.zero_add, readAfter, after_after, reached]
  dsimp only
  rw [read, there, List.getElem_drop, List.getElem?_eq_getElem (by omega)]

theorem Ordered.latest_ne_error {s : Slots α} (ordered : s.Ordered) {n : Nat} {fault : SlotFault}
    (failed : s.latest n = .error fault) : False := by
  rw [ordered.latest n] at failed
  cases failed

end Slots

end KeyValueService
