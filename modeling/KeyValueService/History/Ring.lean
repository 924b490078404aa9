import KeyValueService.History.Slots

/-!
# Rings

A ring keeps the latest items pushed to it, as many as its capacity. Its slots fill up in order;
once they are all in use, the oldest item makes room for the next one. Its slots being in order,
nothing that is asked of a ring has a fault. Main statement: `toList_push`, by which the items of a
ring, oldest first, are the last of those pushed.
-/

namespace KeyValueService

universe u

/-- The latest items pushed. -/
structure Ring (α : Type u) where
  slots : Slots α
  ordered : slots.Ordered

namespace Ring

variable {α : Type u}

/-- A ring without items. -/
def empty (capacity : Nat) : Ring α := ⟨.empty capacity, Slots.ordered_empty capacity⟩

/-- Whether the slots of a ring can be set aside, each taking a number of bytes. Bytes are counted in
whole words of eight, by a signed number of 64 bits. Up to that number memory is taken to suffice; where
the machine has less, the program ends. -/
def hasRoom (slotSize capacity : Nat) : Bool :=
  decide (capacity * slotSize ≤ 0x7ffffffffffffff8)

/-- How many items are kept. -/
def capacity (r : Ring α) : Nat :=
  r.slots.capacity

/-- The number of items. -/
def size (r : Ring α) : Nat :=
  r.slots.size

/-- Whether there are no items. -/
def isEmpty (r : Ring α) : Bool :=
  r.size == 0

/-- Adds an item, in place of the oldest if there is no room. A ring of capacity zero keeps none. -/
def push (r : Ring α) (a : α) : Ring α :=
  match pushed : r.slots.push a with
  | .ok slots => ⟨slots, r.ordered.of_push pushed⟩
  | .error _ => (r.ordered.push_ne_error pushed).elim

/-- The last `n` items, oldest first; all of them if there are fewer. -/
def latest (r : Ring α) (n : Nat) : List α :=
  match read : r.slots.latest n with
  | .ok items => items
  | .error _ => (r.ordered.latest_ne_error read).elim

/-- The items, oldest first. -/
def toList (r : Ring α) : List α :=
  r.latest r.size

/-- Removes the items and keeps the capacity. -/
def clear (r : Ring α) : Ring α := ⟨r.slots.clear, Slots.ordered_empty r.capacity⟩

/-- The slots of a ring to which an item is pushed are those to which it is pushed. -/
theorem push_slots (r : Ring α) (a : α) : r.slots.push a = .ok (r.push a).slots := by
  unfold push
  split
  next slots pushed => exact pushed
  next fault pushed => exact (r.ordered.push_ne_error pushed).elim

theorem latest_slots (r : Ring α) (n : Nat) : r.slots.latest n = .ok (r.latest n) := by
  unfold latest
  split
  next items read => exact read
  next fault read => exact (r.ordered.latest_ne_error read).elim

theorem latest_eq_contents (r : Ring α) (n : Nat) :
    r.latest n = r.slots.contents.drop (r.size - n) :=
  Except.ok.inj ((r.latest_slots n).symm.trans (r.ordered.latest n))

theorem toList_eq_contents (r : Ring α) : r.toList = r.slots.contents := by
  rw [toList, latest_eq_contents, Nat.sub_self, List.drop_zero]

/-- The last items of a ring are the last of all its items. -/
theorem latest_eq_drop (r : Ring α) (n : Nat) : r.latest n = r.toList.drop (r.size - n) := by
  rw [toList_eq_contents, latest_eq_contents]

@[simp] theorem toList_empty (capacity : Nat) : (empty capacity : Ring α).toList = [] := rfl

@[simp] theorem capacity_push (r : Ring α) (a : α) : (r.push a).capacity = r.capacity := by
  obtain ⟨pushed, done, -, same, -⟩ := r.ordered.push a
  have slots : (r.push a).slots = pushed := Except.ok.inj ((r.push_slots a).symm.trans done)
  rw [capacity, slots, same]
  rfl

@[simp] theorem length_toList (r : Ring α) : r.toList.length = r.size := by
  rw [toList_eq_contents, Slots.length_contents r.ordered]
  rfl

theorem size_le_capacity (r : Ring α) : r.size ≤ r.capacity := r.ordered.size_le

/-- While there is room, a pushed item joins the others; later it takes the place of the oldest. -/
theorem toList_push (r : Ring α) (a : α) :
    (r.push a).toList = (r.toList ++ [a]).drop (r.size + 1 - r.capacity) := by
  obtain ⟨pushed, done, -, -, contents⟩ := r.ordered.push a
  have slots : (r.push a).slots = pushed := Except.ok.inj ((r.push_slots a).symm.trans done)
  rw [toList_eq_contents, toList_eq_contents, slots, contents]
  rfl

end Ring

end KeyValueService
