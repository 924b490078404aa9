import KeyValueService.History.Ring
import KeyValueService.Pipeline.Backlog
import Mathlib.Data.List.DropRight

/-!
# The latest items

A ring and a backlog that is only added to hold the last items of all that came, as many as there is
room for. Main statements: `Ring.Retains.push` and `Ring.Retains.latest`; for backlogs,
`Backlog.toList_push_rtake`.
-/

namespace KeyValueService

universe u

/-- What falls out of a list of bounded length has no part in what falls out later. -/
theorem rtake_rtake_append {α : Type u} (items more : List α) (bound : Nat) :
    (items.rtake bound ++ more).rtake bound = (items ++ more).rtake bound := by
  have joined : items.rtake bound ++ more = (items ++ more).drop (items.length - bound) :=
    (List.drop_append_of_le_length (Nat.sub_le _ _)).symm
  rw [joined, List.rtake, List.rtake, List.drop_drop, List.length_drop, List.length_append]
  congr 1
  omega

theorem rtake_of_length_le {α : Type u} {items : List α} {bound : Nat}
    (fits : items.length ≤ bound) : items.rtake bound = items := by
  rw [List.rtake, Nat.sub_eq_zero_of_le fits, List.drop_zero]

theorem rtake_rtake {α : Type u} (items : List α) (bound n : Nat) :
    (items.rtake bound).rtake n = items.rtake (min n bound) := by
  rw [List.rtake, List.rtake, List.rtake, List.drop_drop, List.length_drop]
  congr 1
  omega

namespace Ring

variable {α : Type u} {r : Ring α} {items : List α}

/-- A ring retains of a list of items the last ones, as many as it has slots. -/
def Retains (r : Ring α) (items : List α) : Prop :=
  r.toList = items.rtake r.capacity

theorem retains_empty (capacity : Nat) : (empty capacity : Ring α).Retains [] := by
  rw [Retains, toList_empty, List.rtake_nil]

/-- One more item takes the place of the oldest only once every slot is in use. -/
theorem Retains.push (retained : r.Retains items) (a : α) : (r.push a).Retains (items ++ [a]) := by
  rw [Retains, capacity_push, ← rtake_rtake_append, ← retained, toList_push, List.rtake,
    List.length_append, length_toList, List.length_singleton]

theorem latest_eq_rtake (r : Ring α) (n : Nat) : r.latest n = r.toList.rtake n := by
  rw [latest_eq_drop, List.rtake, length_toList]

/-- The last `n` items of a ring are the last `n` of all, as far as they are retained. -/
theorem Retains.latest (retained : r.Retains items) (n : Nat) :
    r.latest n = items.rtake (min n r.capacity) := by
  rw [latest_eq_rtake, retained, rtake_rtake]

end Ring

namespace Backlog

/-- One more item takes the place of the oldest only if there is no room. -/
theorem toList_push_rtake {α : Type u} (b : Backlog α) (a : α) :
    (b.push a).toList = (b.toList ++ [a]).rtake b.capacity := by
  have bound := b.size_le
  have positive := b.capacity_pos
  rw [toList_push, List.rtake, List.length_append, length_toList, List.length_singleton]
  by_cases full : b.size = b.capacity
  · have excess : b.size + 1 - b.capacity = 1 := by omega
    have nonempty : b.toList ≠ [] := by
      rw [← List.length_pos_iff, length_toList]
      omega
    rw [if_pos (by simpa [isFull] using full), excess, List.drop_one, List.tail_append_of_ne_nil nonempty]
  · have noExcess : b.size + 1 - b.capacity = 0 := by omega
    rw [if_neg (by simpa [isFull] using full), noExcess, List.drop_zero]

end Backlog

end KeyValueService
