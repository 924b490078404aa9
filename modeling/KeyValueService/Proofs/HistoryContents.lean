import KeyValueService.Proofs.LatestItems
import KeyValueService.Sink.Memory
import Mathlib.Data.List.Induction

/-!
# What a history shows

A history consumes records, forgets single sessions and forgets everything. What it shows afterwards
is a function of what happened to it (`recent_exact`): of everything, the last records consumed since
everything was forgotten; of a session, the last of its records consumed since it was forgotten, alone
or with everything. How many there are at most is up to the capacities and nothing else, and what
happens to other sessions has no part in it.

It is assumed that the slots for a session can be set aside when its first record comes.
-/

namespace KeyValueService

namespace Table

universe u
variable {α : Type u}

theorem lookup?_isSome_iff {key : String} {entries : List (String × α)} :
    (lookup? key entries).isSome ↔ key ∈ entries.map (·.1) := by
  induction entries with
  | nil => simp [lookup?]
  | cons first rest inductionHypothesis =>
    by_cases same : key = first.1
    · simp [lookup?, same]
    · simp [lookup?, same, inductionHypothesis]

theorem mem_keys_iff {t : Table α} {key : String} : key ∈ t.keys ↔ t.contains key :=
  lookup?_isSome_iff.symm

theorem pairwise_keys (t : Table α) : t.keys.Pairwise (· < ·) :=
  List.pairwise_map.2 t.sorted

end Table

namespace History

/-- What happens to a history. -/
inductive Act
  | consume (r : Record)
  | clearSession (session : String)
  | clear
  deriving DecidableEq, Repr

namespace Act

/-- The history after an act. -/
def apply (h : History) : Act → History
  | consume r => (h.consume r).1
  | clearSession session => (h.clearSession session).1
  | clear => h.clear

/-- The record that is consumed. -/
def record? : Act → Option Record
  | consume r => some r
  | _ => none

/-- The record that is consumed, if it is one of the session. -/
def recordOf? (session : String) : Act → Option Record
  | consume r => if r.session = some session then some r else none
  | _ => none

/-- Whether a session is forgotten, alone or with everything. -/
def forgets (session : String) : Act → Bool
  | consume _ => false
  | clearSession other => other = session
  | clear => true

/-- Whether an act is about a session at all. -/
def concerns (session : String) (act : Act) : Bool :=
  act.forgets session || (act.recordOf? session).isSome

end Act

/-- The history after acts, one after the other. -/
def run (h : History) (acts : List Act) : History :=
  acts.foldl Act.apply h

/-- The records consumed since everything was last forgotten. -/
def recorded (acts : List Act) : List Record :=
  (acts.rtakeWhile (· ≠ .clear)).filterMap Act.record?

/-- The records of a session consumed since the session was last forgotten. -/
def recordedOf (session : String) (acts : List Act) : List Record :=
  (acts.rtakeWhile (!·.forgets session)).filterMap (Act.recordOf? session)

theorem recorded_append (acts : List Act) (act : Act) :
    recorded (acts ++ [act]) =
      if act = .clear then [] else recorded acts ++ act.record?.toList := by
  unfold recorded
  by_cases cleared : act = .clear
  · rw [List.rtakeWhile_concat_neg _ _ _ (by simpa using cleared), if_pos cleared, List.filterMap_nil]
  · rw [List.rtakeWhile_concat_pos _ _ _ (by simpa using cleared), if_neg cleared,
      List.filterMap_append]
    cases act <;> rfl

theorem recordedOf_append (session : String) (acts : List Act) (act : Act) :
    recordedOf session (acts ++ [act]) =
      if act.forgets session then []
      else recordedOf session acts ++ (act.recordOf? session).toList := by
  unfold recordedOf
  by_cases forgotten : act.forgets session
  · rw [List.rtakeWhile_concat_neg _ _ _ (by simpa using forgotten), if_pos forgotten,
      List.filterMap_nil]
  · rw [List.rtakeWhile_concat_pos _ _ _ (by simpa using forgotten), if_neg forgotten,
      List.filterMap_append]
    rfl

/-- Acts about other sessions leave no mark on what a session is owed. -/
theorem recordedOf_filter (session : String) (acts : List Act) :
    recordedOf session (acts.filter (·.concerns session)) = recordedOf session acts := by
  induction acts using List.reverseRecOn with
  | nil => rfl
  | append_singleton acts act inductionHypothesis =>
    rw [List.filter_append, recordedOf_append, ← inductionHypothesis]
    cases concerned : act.concerns session with
    | true => simp only [List.filter_singleton, concerned, cond_true, recordedOf_append]
    | false =>
      obtain ⟨kept, foreign⟩ : act.forgets session = false ∧ act.recordOf? session = none := by
        simpa [Act.concerns] using concerned
      simp [concerned, kept, foreign]

theorem ofSession_add (h : History) (r : Record) (session : String) :
    (h.add r).ofSession session =
      if r.session = some session then (h.ofSession session).push r else h.ofSession session := by
  cases own : r.session with
  | none => simp [ofSession, add, own]
  | some name =>
    by_cases same : session = name
    · simp [ofSession, add, own, same, Table.find?_insert]
    · simp [ofSession, add, own, same, Ne.symm same, Table.find?_insert]

theorem ofSession_clearSession (h : History) (session other : String) :
    (h.clearSession session).1.ofSession other =
      if other = session then .empty h.sessionCapacity else h.ofSession other := by
  rw [ofSession, clearSession, Table.find?_erase]
  split <;> rfl

theorem contains_add (h : History) (r : Record) (session : String) :
    (h.add r).sessions.contains session ↔
      r.session = some session ∨ h.sessions.contains session := by
  cases own : r.session with
  | none => simp [add, own]
  | some name =>
    by_cases same : session = name
    · simp [add, own, same, Table.contains, Table.find?_insert]
    · simp [add, own, same, Ne.symm same, Table.contains, Table.find?_insert]

theorem contains_clearSession (h : History) (session other : String) :
    (h.clearSession session).1.sessions.contains other ↔
      other ≠ session ∧ h.sessions.contains other := by
  by_cases same : other = session
  · simp [clearSession, same, Table.contains, Table.find?_erase]
  · simp [clearSession, same, Table.contains, Table.find?_erase]

/-- After acts, a history retains what was consumed since the respective last forgetting, and knows
the sessions of which there was something to retain. -/
structure Reflects (h : History) (capacity sessionCapacity : Nat) (acts : List Act) : Prop where
  everything : h.everything.Retains (recorded acts)
  ofSession : ∀ session, (h.ofSession session).Retains (recordedOf session acts)
  known : ∀ session, h.sessions.contains session ↔ recordedOf session acts ≠ []
  places : h.capacity = capacity
  sessionPlaces : h.sessionCapacity = sessionCapacity
  slots : ∀ session, (h.ofSession session).capacity = sessionCapacity

variable {h : History} {capacity sessionCapacity : Nat} {acts : List Act}

theorem reflects_empty (capacity sessionCapacity : Nat) :
    (empty capacity sessionCapacity).Reflects capacity sessionCapacity [] where
  everything := Ring.retains_empty capacity
  ofSession _ := Ring.retains_empty sessionCapacity
  known session := by simp [empty, Table.contains, recordedOf]
  places := rfl
  sessionPlaces := rfl
  slots _ := rfl

/-- A record joins those of everything and those of its session, which is known from then on. -/
theorem Reflects.add (reflects : h.Reflects capacity sessionCapacity acts) (r : Record) :
    (h.add r).Reflects capacity sessionCapacity (acts ++ [.consume r]) where
  everything := by
    rw [recorded_append]
    exact reflects.everything.push r
  ofSession session := by
    rw [recordedOf_append, ofSession_add]
    by_cases own : r.session = some session
    · simpa [Act.forgets, Act.recordOf?, own] using (reflects.ofSession session).push r
    · simpa [Act.forgets, Act.recordOf?, own] using reflects.ofSession session
  known session := by
    rw [recordedOf_append, contains_add, reflects.known]
    by_cases own : r.session = some session
    · simp [Act.forgets, Act.recordOf?, own]
    · simp [Act.forgets, Act.recordOf?, own]
  places := by rw [← reflects.places]; exact Ring.capacity_push h.everything r
  sessionPlaces := reflects.sessionPlaces
  slots session := by
    rw [ofSession_add]
    split
    · rw [Ring.capacity_push, reflects.slots]
    · exact reflects.slots session

theorem Reflects.clearSession (reflects : h.Reflects capacity sessionCapacity acts)
    (session : String) :
    (h.clearSession session).1.Reflects capacity sessionCapacity
      (acts ++ [.clearSession session]) where
  everything := by
    rw [recorded_append, if_neg (by simp)]
    exact (List.append_nil _).symm ▸ reflects.everything
  ofSession other := by
    rw [recordedOf_append, ofSession_clearSession]
    by_cases same : other = session
    · simpa [Act.forgets, same] using Ring.retains_empty h.sessionCapacity
    · simpa [Act.forgets, Act.recordOf?, same, Ne.symm same] using reflects.ofSession other
  known other := by
    rw [recordedOf_append, contains_clearSession, reflects.known]
    by_cases same : other = session
    · simp [Act.forgets, same]
    · simp [Act.forgets, Act.recordOf?, same, Ne.symm same]
  places := reflects.places
  sessionPlaces := reflects.sessionPlaces
  slots other := by
    rw [ofSession_clearSession]
    split
    · exact reflects.sessionPlaces
    · exact reflects.slots other

theorem Reflects.clear (reflects : h.Reflects capacity sessionCapacity acts) :
    h.clear.Reflects capacity sessionCapacity (acts ++ [.clear]) where
  everything := by
    rw [recorded_append]
    exact Ring.retains_empty h.everything.capacity
  ofSession session := by
    rw [recordedOf_append]
    exact Ring.retains_empty h.sessionCapacity
  known session := by
    rw [recordedOf_append]
    simp [History.clear, Table.contains, Act.forgets]
  places := reflects.places
  sessionPlaces := reflects.sessionPlaces
  slots _ := reflects.sessionPlaces

/-- Where slots can be set aside for a session, every record is consumed. -/
theorem Reflects.consume_eq (reflects : h.Reflects capacity sessionCapacity acts)
    (room : hasRoom sessionCapacity) (r : Record) : h.consume r = (h.add r, .completed) := by
  refine consume_of_canAdd ?_
  rw [canAdd, reflects.sessionPlaces, room]
  cases r.session <;> simp

theorem Reflects.apply (reflects : h.Reflects capacity sessionCapacity acts)
    (room : hasRoom sessionCapacity) (act : Act) :
    (act.apply h).Reflects capacity sessionCapacity (acts ++ [act]) := by
  cases act with
  | consume r =>
    rw [Act.apply, reflects.consume_eq room]
    exact reflects.add r
  | clearSession session => exact reflects.clearSession session
  | clear => exact reflects.clear

theorem reflects_run (capacity : Nat) (room : hasRoom sessionCapacity) (acts : List Act) :
    ((empty capacity sessionCapacity).run acts).Reflects capacity sessionCapacity acts := by
  induction acts using List.reverseRecOn with
  | nil => exact reflects_empty capacity sessionCapacity
  | append_singleton acts act inductionHypothesis =>
    rw [run, List.foldl_append]
    exact inductionHypothesis.apply room act

theorem Reflects.latest (reflects : h.Reflects capacity sessionCapacity acts) (n : Nat) :
    h.latest n = (recorded acts).rtake (min n capacity) := by
  rw [← reflects.places]
  exact reflects.everything.latest n

theorem Reflects.latestOf (reflects : h.Reflects capacity sessionCapacity acts) (session : String)
    (n : Nat) : h.latestOf session n = (recordedOf session acts).rtake (min n sessionCapacity) := by
  rw [← reflects.slots session]
  exact (reflects.ofSession session).latest n

theorem Reflects.mem_sessionNames (reflects : h.Reflects capacity sessionCapacity acts)
    (session : String) : session ∈ h.sessionNames ↔ recordedOf session acts ≠ [] := by
  rw [sessionNames, Table.mem_keys_iff, reflects.known]

/-- Whatever was consumed and forgotten, in whatever order, and whatever the capacities are:

* the last `n` records of everything are the last ones consumed since everything was forgotten, as
  many as are asked for and kept;
* the last `n` records of a session are the last of those that were consumed since the session was
  forgotten, alone or with everything, as many as are asked for and kept for a session;
* the sessions known are in ascending order, each named once, those with a record consumed since they
  were forgotten, also where no records of sessions are kept;
* the next record is consumed; forgetting a session tells whether it was known, and changes nothing of
  everything and of other sessions;
* what is shown of a session is the same after any other acts, as long as those about this session are
  the same in the same order.

Proof: `Reflects` is kept by each act, for all sessions at once. -/
theorem recent_exact (capacity sessionCapacity : Nat) (room : hasRoom sessionCapacity)
    (acts : List Act) :
    let h := (empty capacity sessionCapacity).run acts
    (∀ n, h.latest n = (recorded acts).rtake (min n capacity)) ∧
    (∀ session n,
      h.latestOf session n = (recordedOf session acts).rtake (min n sessionCapacity)) ∧
    (h.sessionNames.Pairwise (· < ·) ∧
      ∀ session, session ∈ h.sessionNames ↔ recordedOf session acts ≠ []) ∧
    (∀ r, (h.consume r).2 = .completed) ∧
    (∀ session,
      let cleared := h.clearSession session
      (cleared.2 = true ↔ session ∈ h.sessionNames) ∧
      (∀ n, cleared.1.latest n = h.latest n) ∧
      ∀ other ≠ session,
        (∀ n, cleared.1.latestOf other n = h.latestOf other n) ∧
        (other ∈ cleared.1.sessionNames ↔ other ∈ h.sessionNames)) ∧
    ∀ session others,
      others.filter (·.concerns session) = acts.filter (·.concerns session) →
      let h' := (empty capacity sessionCapacity).run others
      (∀ n, h'.latestOf session n = h.latestOf session n) ∧
      (session ∈ h'.sessionNames ↔ session ∈ h.sessionNames) := by
  intro h
  have reflects : h.Reflects capacity sessionCapacity acts := reflects_run capacity room acts
  refine ⟨reflects.latest, reflects.latestOf, ⟨h.sessions.pairwise_keys, reflects.mem_sessionNames⟩,
    fun r => congrArg Prod.snd (reflects.consume_eq room r), fun session => ?_,
    fun session others alike => ?_⟩
  · refine ⟨Table.mem_keys_iff.symm, fun n => rfl, fun other different => ⟨fun n => ?_, ?_⟩⟩
    · rw [latestOf, ofSession_clearSession, if_neg different, latestOf]
    · rw [sessionNames, sessionNames, Table.mem_keys_iff, Table.mem_keys_iff, contains_clearSession]
      exact and_iff_right different
  · have reflects' := reflects_run capacity room others
    have same : recordedOf session others = recordedOf session acts := by
      rw [← recordedOf_filter, alike, recordedOf_filter]
    refine ⟨fun n => ?_, ?_⟩
    · rw [reflects'.latestOf, reflects.latestOf, same]
    · rw [reflects'.mem_sessionNames, reflects.mem_sessionNames, same]

/-- A session that wraps around, and another one that is forgotten and comes back. -/
theorem recent_of_two_sessions :
    let record session message : Record := ⟨⟨0⟩, 1, .info, session, message⟩
    let own := [record (some "a") "1", record (some "a") "2"]
    let others := [record (some "b") "3", record none "4", record (some "b") "5"]
    let acts : List Act :=
      [.consume own[0], .consume others[0], .consume own[1], .clearSession "b",
        .consume others[1], .consume others[2]]
    let h := (empty 2 1).run acts
    let alone := (empty 2 1).run [.consume own[0], .consume own[1]]
    hasRoom 1 ∧ "b" ≠ "a" ∧
      h.latest 9 = [others[1], others[2]] ∧ h.latestOf "a" 9 = [own[1]] ∧
      "b" ∈ h.sessionNames ∧ (∀ n, (h.clearSession "a").1.latestOf "b" n = h.latestOf "b" n) ∧
      ∀ n, alone.latestOf "a" n = h.latestOf "a" n := by
  intro record own others acts h alone
  have room : hasRoom 1 = true := by decide
  obtain ⟨everything, ofSession, ⟨-, known⟩, -, clearing, apart⟩ := recent_exact 2 1 room acts
  have different : "b" ≠ "a" := by decide
  refine ⟨room, different, (everything 9).trans (by decide +kernel), (ofSession "a" 9).trans
    (by decide +kernel), (known "b").2 (by decide +kernel), ((clearing "a").2.2 "b" different).1, ?_⟩
  exact (apart "a" [.consume own[0], .consume own[1]] (by decide +kernel)).1

end History

end KeyValueService
