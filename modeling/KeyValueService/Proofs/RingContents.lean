import KeyValueService.Proofs.LatestItems

/-!
# What a ring holds after any calls

A ring that is pushed to, cleared and reset holds the last of the items pushed since it was last cleared
or reset, as many as its present capacity. Main statement: `ring_holds_latest`. It is said of the ring
and of the checked operations on its slots at once: none of these has a fault on the way, so that no
position is out of range and no remainder by zero is taken, whatever the capacities and the calls.
-/

namespace KeyValueService

universe u

/-- What a ring is called for. One that is reset loses its items and has another capacity. -/
inductive RingCall (α : Type u)
  | push (a : α)
  | clear
  | reset (capacity : Nat)

namespace RingCall

variable {α : Type u}

/-- Carries a call out on a ring. -/
def apply (r : Ring α) : RingCall α → Ring α
  | push a => r.push a
  | clear => r.clear
  | reset capacity => .empty capacity

/-- Carries calls out on a ring one after the other. -/
def run (r : Ring α) (calls : List (RingCall α)) : Ring α :=
  calls.foldl apply r

/-- Carries a call out on slots. -/
def applySlots (s : Slots α) : RingCall α → Except SlotFault (Slots α)
  | push a => s.push a
  | clear => .ok s.clear
  | reset capacity => .ok (.empty capacity)

/-- Carries calls out on slots one after the other, up to the first that has a fault. -/
def runSlots (s : Slots α) : List (RingCall α) → Except SlotFault (Slots α)
  | [] => .ok s
  | call :: rest =>
    match call.applySlots s with
    | .error e => .error e
    | .ok s => runSlots s rest

/-- Whether a call leaves the items where they are and pushes one. -/
def isPush : RingCall α → Bool
  | push _ => true
  | clear => false
  | reset _ => false

/-- The item that a call pushes. -/
def item? : RingCall α → Option α
  | push a => some a
  | clear => none
  | reset _ => none

/-- The capacity that a call sets. -/
def capacity? : RingCall α → Option Nat
  | push _ => none
  | clear => none
  | reset capacity => some capacity

/-- The items pushed since the last call that was no push. -/
def pushed (calls : List (RingCall α)) : List α :=
  (calls.rtakeWhile isPush).filterMap item?

/-- The capacity last set, the given one if none was. -/
def lastCapacity (capacity : Nat) (calls : List (RingCall α)) : Nat :=
  (calls.filterMap capacity?).getLast?.getD capacity

theorem pushed_concat (calls : List (RingCall α)) (call : RingCall α) :
    pushed (calls ++ [call]) =
      match call with
      | push a => pushed calls ++ [a]
      | clear => []
      | reset _ => [] := by
  rw [pushed, List.rtakeWhile_concat]
  cases call <;> simp [isPush, item?, pushed]

theorem lastCapacity_concat (capacity : Nat) (calls : List (RingCall α)) (call : RingCall α) :
    lastCapacity capacity (calls ++ [call]) = call.capacity?.getD (lastCapacity capacity calls) := by
  rw [lastCapacity, List.filterMap_append]
  cases call <;> simp [capacity?, lastCapacity]

/-- What a ring does with a call its slots do, without a fault. -/
theorem applySlots_slots (r : Ring α) (call : RingCall α) :
    call.applySlots r.slots = .ok (call.apply r).slots := by
  cases call with
  | push a => exact r.push_slots a
  | clear => rfl
  | reset capacity => rfl

theorem runSlots_slots (r : Ring α) (calls : List (RingCall α)) :
    runSlots r.slots calls = .ok (run r calls).slots := by
  induction calls generalizing r with
  | nil => rfl
  | cons call rest inductionHypothesis =>
    rw [runSlots, applySlots_slots]
    exact inductionHypothesis (call.apply r)

/-- A call sets the capacity or leaves it as it is. -/
theorem capacity_apply (r : Ring α) (call : RingCall α) :
    (call.apply r).capacity = call.capacity?.getD r.capacity := by
  cases call with
  | push a => exact r.capacity_push a
  | clear => rfl
  | reset capacity => rfl

/-- A ring that retains what was pushed does so after one more call. -/
theorem retains_apply {r : Ring α} {calls : List (RingCall α)} (retained : r.Retains (pushed calls))
    (call : RingCall α) : (call.apply r).Retains (pushed (calls ++ [call])) := by
  rw [pushed_concat]
  cases call with
  | push a => exact retained.push a
  | clear => exact Ring.retains_empty r.capacity
  | reset capacity => exact Ring.retains_empty capacity

/-- After any calls a ring has the capacity last set and retains what was pushed since. -/
theorem retains_run (capacity : Nat) (calls : List (RingCall α)) :
    (run (.empty capacity) calls).capacity = lastCapacity capacity calls ∧
      (run (.empty capacity) calls).Retains (pushed calls) := by
  induction calls using List.reverseRecOn with
  | nil => exact ⟨rfl, Ring.retains_empty capacity⟩
  | append_singleton calls call inductionHypothesis =>
    obtain ⟨same, retained⟩ := inductionHypothesis
    have last : run (.empty capacity) (calls ++ [call]) = call.apply (run (.empty capacity) calls) := by
      rw [run, List.foldl_append]
      rfl
    rw [last, capacity_apply, lastCapacity_concat, same]
    exact ⟨rfl, retains_apply retained call⟩

end RingCall

open RingCall

/-- After any calls on a ring of any capacity, `items` being those pushed since it was last cleared or
reset and `kept` its present capacity: no call has had a fault, and none has a reading of the last
items, which gives the last `n` of them as far as they are kept. All that is kept is what is read if at
least so many are asked for; size, emptiness and capacity go with it. The last few items end the last
few more.

Proof: the slots of a ring do what the ring does, and a ring retains the items, call by call. What is
read is then the end of a list of known length. -/
theorem ring_holds_latest {α : Type u} (capacity : Nat) (calls : List (RingCall α)) :
    let r := run (.empty capacity) calls
    let items := pushed calls
    let kept := lastCapacity capacity calls
    runSlots (.empty capacity) calls = .ok r.slots ∧
      (∀ n, r.slots.latest n = .ok (r.latest n) ∧ r.latest n = items.rtake (min n kept)) ∧
      (∀ n, r.latest (r.size + n) = r.toList) ∧ r.toList = items.rtake kept ∧
      r.size = (items.rtake kept).length ∧ r.isEmpty = (items.rtake kept).isEmpty ∧
      r.capacity = kept ∧ ∀ few more, r.latest few <:+ r.latest (few + more) := by
  intro r items kept
  obtain ⟨same, retained⟩ := retains_run capacity calls
  have all : r.toList = items.rtake kept := by
    rw [retained, same]
  have size : r.size = (items.rtake kept).length := by
    rw [← all, r.length_toList]
  refine ⟨runSlots_slots (.empty capacity) calls, fun n => ⟨r.latest_slots n, ?_⟩, fun n => ?_, all, size,
    ?_, same, fun few more => ?_⟩
  · rw [retained.latest, same]
  · rw [r.latest_eq_drop, Nat.sub_eq_zero_of_le (Nat.le_add_right _ _), List.drop_zero]
  · rw [Ring.isEmpty, size]
    cases items.rtake kept <;> rfl
  · rw [r.latest_eq_drop, r.latest_eq_drop]
    exact List.drop_suffix_drop_left r.toList (by omega)

end KeyValueService
