/-!
# Backlogs

A backlog holds items until they are taken, in the order in which they came, and no more of them than
its capacity, which is at least one. A new item takes the place of the oldest when there is no room.
The items are kept in two lists, so that adding one and taking one are cheap in the long run. Main
statements: `toList_push` and `toList_of_pop?`, which say what adding and taking do to the items in
order.
-/

namespace KeyValueService

universe u

/-- Items in order: those of `front`, and then those of `back`, whose last is the oldest. -/
structure Backlog (α : Type u) where
  capacity : Nat
  front : List α
  back : List α
  size : Nat
  size_eq : size = front.length + back.length
  size_le : size ≤ capacity
  capacity_pos : 0 < capacity

namespace Backlog

variable {α : Type u}

/-- A backlog without items, with room for at least one. -/
def empty (capacity : Nat) : Backlog α where
  capacity := max capacity 1
  front := []
  back := []
  size := 0
  size_eq := rfl
  size_le := Nat.zero_le _
  capacity_pos := by omega

/-- The items, oldest first. -/
def toList (b : Backlog α) : List α :=
  b.front ++ b.back.reverse

/-- Takes the oldest item. -/
def pop? (b : Backlog α) : Option (α × Backlog α) :=
  match split : b.front, reversed : b.back.reverse with
  | a :: front, _ =>
    some (a,
      { b with
        front
        size := b.size - 1
        size_eq := by rw [b.size_eq, split, List.length_cons]; omega
        size_le := Nat.le_trans (Nat.sub_le _ _) b.size_le })
  | [], a :: front =>
    some (a,
      { b with
        front
        back := []
        size := front.length
        size_eq := rfl
        size_le := by
          have moved := congrArg List.length reversed
          have counted := b.size_eq
          have bound := b.size_le
          rw [List.length_reverse, List.length_cons] at moved
          omega })
  | [], [] => none

/-- Whether there is no room for another item. -/
def isFull (b : Backlog α) : Bool :=
  b.size == b.capacity

/-- The items without the oldest; no items stay no items. -/
def dropOldest (b : Backlog α) : Backlog α :=
  (b.pop?.map (·.2)).getD b

/-- The backlog without its items. -/
def clear (b : Backlog α) : Backlog α :=
  { b with
    front := []
    back := []
    size := 0
    size_eq := rfl
    size_le := Nat.zero_le _ }

theorem length_toList (b : Backlog α) : b.toList.length = b.size := by
  rw [b.size_eq, toList, List.length_append, List.length_reverse]

theorem toList_of_pop? {b rest : Backlog α} {a : α} (taken : b.pop? = some (a, rest)) :
    b.toList = a :: rest.toList := by
  unfold pop? at taken
  split at taken
  next split =>
    cases taken
    simp [toList, split]
  next split reversed =>
    cases taken
    simp [toList, split, reversed]
  next => cases taken

theorem pop?_eq_none_iff {b : Backlog α} : b.pop? = none ↔ b.toList = [] := by
  unfold pop?
  split
  next split => simp [toList, split]
  next split reversed => simp [toList, split, reversed]
  next split reversed => simp [toList, split, reversed]

theorem eq_clear_of_toList {b : Backlog α} (none : b.toList = []) : b = b.clear := by
  obtain ⟨capacity, front, back, size, size_eq, size_le, capacity_pos⟩ := b
  obtain ⟨rfl, reversed⟩ := List.append_eq_nil_iff.1 none
  obtain rfl := List.reverse_eq_nil_iff.1 reversed
  obtain rfl : size = 0 := size_eq
  rfl

theorem clear_of_pop? {b rest : Backlog α} {a : α} (taken : b.pop? = some (a, rest)) :
    rest.clear = b.clear := by
  unfold pop? at taken
  split at taken <;> cases taken <;> rfl

theorem capacity_of_pop? {b rest : Backlog α} {a : α} (taken : b.pop? = some (a, rest)) :
    rest.capacity = b.capacity := by
  unfold pop? at taken
  split at taken <;> cases taken <;> rfl

theorem toList_dropOldest (b : Backlog α) : b.dropOldest.toList = b.toList.tail := by
  unfold dropOldest
  match taken : b.pop? with
  | none => simp [pop?_eq_none_iff.1 taken]
  | some (a, rest) => simp [toList_of_pop? taken]

theorem capacity_dropOldest (b : Backlog α) : b.dropOldest.capacity = b.capacity := by
  unfold dropOldest
  match taken : b.pop? with
  | none => rfl
  | some (a, rest) => exact capacity_of_pop? taken

theorem size_dropOldest (b : Backlog α) : b.dropOldest.size = b.size - 1 := by
  rw [← length_toList, toList_dropOldest, List.length_tail, length_toList]

/-- The backlog after the oldest item has left if there was no room. -/
def madeRoom (b : Backlog α) : Backlog α :=
  if b.isFull then b.dropOldest else b

theorem size_madeRoom_lt (b : Backlog α) : b.madeRoom.size < b.madeRoom.capacity := by
  have bound := b.size_le
  have positive := b.capacity_pos
  unfold madeRoom isFull
  split
  next full =>
    rw [size_dropOldest, capacity_dropOldest]
    have := eq_of_beq full
    omega
  next notFull =>
    have : b.size ≠ b.capacity := by simpa using notFull
    omega

/-- Adds an item, after the oldest has left if there was no room. -/
def push (b : Backlog α) (a : α) : Backlog α :=
  { b.madeRoom with
    back := a :: b.madeRoom.back
    size := b.madeRoom.size + 1
    size_eq := by rw [b.madeRoom.size_eq, List.length_cons]; omega
    size_le := b.size_madeRoom_lt }

@[simp] theorem toList_empty (capacity : Nat) : (empty capacity : Backlog α).toList = [] := rfl

@[simp] theorem toList_clear (b : Backlog α) : b.clear.toList = [] := rfl

@[simp] theorem capacity_push (b : Backlog α) (a : α) : (b.push a).capacity = b.capacity := by
  change b.madeRoom.capacity = b.capacity
  unfold madeRoom
  split
  · exact b.capacity_dropOldest
  · rfl

/-- A new item comes last, and the oldest leaves exactly if there was no room. -/
theorem toList_push (b : Backlog α) (a : α) :
    (b.push a).toList = (if b.isFull then b.toList.tail else b.toList) ++ [a] := by
  have joined : (b.push a).toList = b.madeRoom.toList ++ [a] := by simp [push, toList]
  rw [joined]
  unfold madeRoom
  split
  · rw [toList_dropOldest]
  · rfl

end Backlog

end KeyValueService
