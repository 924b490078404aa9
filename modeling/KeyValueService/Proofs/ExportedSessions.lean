import KeyValueService.Proofs.CarriedRecords
import KeyValueService.Proofs.HistoryContents

/-!
# Exports of sessions

The log of a session is shown in two forms: as the lines of its records, and as a text that is cut into
lines again. Both show the same records, as what the service notes has no line break in it, and what is
kept of a session are records of this session, no more than there is room for (`History.Sorted`). So the
lines of an export are those of the records with the tag of the session taken out. Main statement:
`Service.export_matches_log`.
-/

namespace KeyValueService

open Text

/-- A line without the tag of a session and the blank that ends it. The tag stands a blank behind the number
of the producer, which the first closing parenthesis ends. -/
def untag? (name line : String) : Option String := do
  let (front, behind) ← cut? (· == ')') line.toList
  let rest ← (" <" ++ name ++ "> ").toList.isPrefixOf? behind
  some (String.ofList (front ++ ')' :: ' ' :: rest))

namespace Record

/-- A record of a session is exported as its line without the tag. -/
theorem untag?_plain {r : Record} {name : String} (own : r.session = some name) :
    untag? name r.plain = some r.exported := by
  have free : ')' ∉ ("[" ++ r.time.stamp ++ "] [" ++ r.level.label ++ "] (t:" ++
      toString r.producer).toList := by
    have stamp : ')' ∉ r.time.stamp.toList := not_mem_stamp rfl (by decide) r.time
    have label : ')' ∉ r.level.label.toList := by cases r.level <;> decide
    have producer : ')' ∉ (toString r.producer).toList := not_mem_repr rfl r.producer
    simp only [String.toList_append, List.mem_append, stamp, label, producer]
    decide
  have cut : cut? (· == ')') r.plain.toList = some
      (("[" ++ r.time.stamp ++ "] [" ++ r.level.label ++ "] (t:" ++ toString r.producer).toList,
        (" <" ++ name ++ "> ").toList ++ r.message.toList) := by
    rw [cut?_eq_some_iff]
    refine ⟨?_, free⟩
    simp [plain, head, sessionTag, own]
  have tag : (" <" ++ name ++ "> ").toList.isPrefixOf?
      ((" <" ++ name ++ "> ").toList ++ r.message.toList) = some r.message.toList :=
    List.isPrefixOf?_eq_some_iff_append_eq.2 rfl
  rw [untag?, cut]
  simp only [Option.bind_eq_bind, Option.bind_some, tag, Option.some.injEq, ← String.toList_inj]
  simp [exported, head]

end Record

/-- Flat texts that are written with a line feed each are cut into themselves. -/
theorem lines_of_flat {texts : List String} (flat : ∀ text ∈ texts, Flat text) :
    (lines (String.join (texts.map (· ++ "\n"))).toList).map String.ofList = texts := by
  induction texts with
  | nil => rfl
  | cons text rest inductionHypothesis =>
    obtain ⟨first, others⟩ := List.forall_mem_cons.1 flat
    have whole : (String.join ((text :: rest).map (· ++ "\n"))).toList =
        text.toList ++ '\n' :: (String.join (rest.map (· ++ "\n"))).toList := by
      simp
    have bare : text.toList.getLast? ≠ some '\r' := fun last =>
      first.noReturn (List.mem_of_getLast? last)
    rw [whole, lines_fed first.unbroken bare, List.map_cons, inductionHypothesis others,
      String.ofList_toList]

namespace History

variable {h : History} {sessionCapacity : Nat}

/-- What is kept of a session are records of this session with flat messages, and there is room for a
certain number of them. -/
structure Sorted (sessionCapacity : Nat) (h : History) : Prop where
  own : ∀ name, ∀ r ∈ (h.ofSession name).toList, r.session = some name ∧ Flat r.message
  places : h.sessionCapacity = sessionCapacity
  slots : ∀ name, (h.ofSession name).capacity = sessionCapacity

theorem sorted_empty (capacity sessionCapacity : Nat) :
    (empty capacity sessionCapacity).Sorted sessionCapacity where
  own _ _ member := nomatch member
  places := rfl
  slots _ := rfl

theorem Sorted.add {r : Record} (sorted : h.Sorted sessionCapacity) (flat : Flat r.message) :
    (h.add r).Sorted sessionCapacity where
  own name other member := by
    rw [ofSession_add] at member
    split at member
    next own =>
      rcases Ring.mem_push member with member | rfl
      · exact sorted.own name other member
      · exact ⟨own, flat⟩
    next foreign => exact sorted.own name other member
  places := sorted.places
  slots name := by
    rw [ofSession_add]
    split
    · rw [Ring.capacity_push, sorted.slots]
    · exact sorted.slots name

/-- Sessions are kept apart, whatever is consumed and forgotten. -/
theorem stable_sorted : Service.Stable (fun r => Flat r.message) (Sorted sessionCapacity) where
  consume {h r} sorted flat := by
    rw [consume]
    split
    · exact sorted.add flat
    · exact ⟨sorted.own, sorted.places, sorted.slots⟩
  clear {h} sorted := ⟨fun name r member => (nomatch member), sorted.places, fun name => sorted.places⟩
  clearSession {h} name sorted := by
    refine ⟨fun other r member => ?_, sorted.places, fun other => ?_⟩
    · rw [ofSession_clearSession] at member
      split at member
      · cases member
      · exact sorted.own other r member
    · rw [ofSession_clearSession]
      split
      · exact sorted.places
      · exact sorted.slots other

namespace Sorted

/-- With room for no more records than are asked for, all are shown. -/
theorem latestOf_eq_toList (sorted : h.Sorted sessionCapacity) (name : String) {count : Nat}
    (enough : sessionCapacity ≤ count) : h.latestOf name count = (h.ofSession name).toList := by
  have bound := (h.ofSession name).size_le_capacity
  rw [sorted.slots] at bound
  rw [latestOf, Ring.latest_eq_drop, Nat.sub_eq_zero_of_le (Nat.le_trans bound enough), List.drop_zero]

/-- The lines of the export are those of the records without the tag. -/
theorem lines_exportOf (sorted : h.Sorted sessionCapacity) (name : String) :
    (lines (h.exportOf name).toList).map String.ofList =
      (h.ofSession name).toList.map Record.exported := by
  rw [exportOf_eq_join]
  refine lines_of_flat fun text member => ?_
  obtain ⟨r, kept, rfl⟩ := List.mem_map.1 member
  rw [Record.exported, flat_append]
  exact ⟨r.flat_head (flat_label _), (sorted.own name r kept).2⟩

end Sorted

end History

namespace Service

variable {s : Service}

/-- A client that may use the service is answered as its request is carried out. -/
theorem response_of_read {origin : Origin} {session : Session}
    (authenticated : session.isAuthenticated = true) {line : List Char} {request : Request}
    (read : Request.read line = .ok request) :
    (s.handle origin session line).2.2 = (s.carryOut origin session request).2.2 := by
  rw [handle, read]
  dsimp only
  rw [execute, authenticated, Bool.true_or, if_pos rfl]

/-- In a service whose log has only what it says itself, a client that may use it asks for the log of a
session: for an export of it, for as many records as are kept or more, and for any number of records. The
entries of the export are those of the records, one for one, without the tag of the session behind the
number of the producer, and the last records are shown as they are among all.

Proof: `History.Sorted` holds of an empty history and is kept by whatever happens, since all records have
flat messages. So the text of the export is cut where records end and nowhere else. -/
theorem export_matches_log {capacity sessionCapacity : Nat}
    (empty : s.log.outside.history = .empty capacity sessionCapacity)
    (nothing : s.log.backlog.toList = []) (idle : s.log.isIdle = true) (events : List Event) :
    let reached := (s.converse events).1
    ∀ (origin : Origin) (session : Session) (name : String) (enough count : Nat)
      (exporting listing showing : List Char), session.isAuthenticated = true →
      Request.read exporting = .ok (.exportLog name) →
      Request.read listing = .ok (.sessionLogs name enough) → sessionCapacity ≤ enough →
      Request.read showing = .ok (.sessionLogs name count) →
        ∃ exported listed shown,
          (reached.handle origin session exporting).2.2 = .block exported ∧
            (reached.handle origin session listing).2.2 = .block listed ∧
            (reached.handle origin session showing).2.2 = .block shown ∧
            exported.length = listed.length ∧
            listed.map (untag? name) = exported.map some ∧ shown <:+ listed := by
  intro reached origin session name enough count exporting listing showing authenticated exports lists
    room shows
  have start : s.Carries (fun r => Flat r.message) (History.Sorted sessionCapacity) :=
    .of_idle nothing idle (empty ▸ History.sorted_empty capacity sessionCapacity)
  have sorted : reached.log.outside.history.Sorted sessionCapacity :=
    (start.converse History.stable_sorted fun _ _ _ _ _ _ flat => flat).history
  refine ⟨_, _, _, (response_of_read authenticated exports).trans rfl,
    (response_of_read authenticated lists).trans rfl,
    (response_of_read authenticated shows).trans rfl, ?_⟩
  rw [Pipeline.exportOf, Pipeline.latestOf, Pipeline.latestOf]
  rcases history?_cases reached.log with none | found
  · rw [none]
    exact ⟨rfl, rfl, List.suffix_refl []⟩
  · rw [found]
    simp only [Option.map_some, Option.getD_some]
    rw [sorted.lines_exportOf, sorted.latestOf_eq_toList name room, History.latestOf, Ring.latest_eq_drop]
    refine ⟨by rw [List.length_map, List.length_map], ?_, (List.drop_suffix _ _).map Record.plain⟩
    rw [List.map_map, List.map_map]
    exact List.map_congr_left fun r kept => Record.untag?_plain (sorted.own name r kept).1

/-- A client stores a value and then sends a word that is no verb, twice, which makes one record more than
there is room for. The log of its session and the export of it are asked for. -/
theorem export_of_full_session :
    let s : Service :=
      ⟨((Pipeline.create 4 (.ofHistory (.ofFiles .empty) (.empty 4 2) ())).addSink .history).start,
        .inMemory, .everyone, false⟩
    let origin : Origin := ⟨⟨0⟩, 1⟩
    let session : Session := ⟨"conn-1", true⟩
    let said (text : String) : List Event := [.line origin session text.toList, .work, .work, .work]
    let reached := (s.converse (said "PUT a <conn-1>\r\n" ++ said "(x)" ++ said "(x)")).1
    let entry := "[1970-01-01 00:00:00.000] [ WARN] (t:1) <conn-1> rejected command: unknown command (x)"
    (reached.handle origin session "SESSION_LOGS conn-1 2".toList).2.2 = .block [entry, entry] ∧
      ∃ exported shown,
        (reached.handle origin session "EXPORT conn-1".toList).2.2 = .block exported ∧
          (reached.handle origin session "SESSION_LOGS conn-1 1".toList).2.2 = .block shown ∧
          exported.length = 2 ∧ [entry, entry].map (untag? "conn-1") = exported.map some ∧
          shown <:+ [entry, entry] := by
  intro s origin session said reached entry
  obtain ⟨exports, lists, shows, answer⟩ :
      Request.read "EXPORT conn-1".toList = .ok (.exportLog "conn-1") ∧
        Request.read "SESSION_LOGS conn-1 2".toList = .ok (.sessionLogs "conn-1" 2) ∧
        Request.read "SESSION_LOGS conn-1 1".toList = .ok (.sessionLogs "conn-1" 1) ∧
        (reached.handle origin session "SESSION_LOGS conn-1 2".toList).2.2 = .block [entry, entry] := by
    decide +kernel
  obtain ⟨exported, listed, shown, exporting, listing, showing, length, untagged, suffix⟩ :=
    export_matches_log (s := s) rfl rfl rfl _ origin session "conn-1" 2 1 _ _ _ rfl exports lists
      (by decide) shows
  obtain rfl : listed = [entry, entry] := Response.block.inj (listing.symm.trans answer)
  exact ⟨answer, exported, shown, exporting, showing, length, untagged, suffix⟩

end Service

end KeyValueService
