import KeyValueService.Proofs.CarriedRecords

/-!
# Answers that clients can tell apart

A service is tidy if every value and every record is on one line (`Service.Tidy`). What it does
keeps it so: a line of a client comes into values, records and answers only in parts that have no
line feed, which are words, a value before the end of the line, and quoted text; and records are only
handed on. In a tidy service the answer to a line fits the line (`tidy_of_handle`), so a
client can tell all its answers from the bytes that it receives.
-/

namespace KeyValueService

namespace Service

/-- Every value, and every record that waits, is being delivered or is kept in memory, is on one
line. -/
structure Tidy (s : Service) : Prop where
  values : ∀ key value, s.store.table.find? key = some value → Unbroken value
  waiting : ∀ r ∈ s.log.backlog.toList, r.OnOneLine
  delivering : ∀ r remaining, s.log.worker = .delivering r remaining → r.OnOneLine
  history : s.log.outside.history.OnOneLine

variable {s : Service}

theorem stable_onOneLine : Stable Record.OnOneLine History.OnOneLine where
  consume oneLine consumed := oneLine.consume consumed
  clear _ := History.onOneLine_clear _
  clearSession name oneLine := oneLine.clearSession name

theorem Tidy.carries (tidy : s.Tidy) : s.Carries Record.OnOneLine History.OnOneLine :=
  ⟨tidy.waiting, tidy.delivering, tidy.history⟩

theorem Carries.tidy (carries : s.Carries Record.OnOneLine History.OnOneLine)
    (values : ∀ key value, s.store.table.find? key = some value → Unbroken value) : s.Tidy :=
  ⟨values, carries.waiting, carries.delivering, carries.history⟩

/-- The worker hands on what is on one line. -/
theorem Tidy.work (tidy : s.Tidy) : Tidy { s with log := s.log.work standardOutlets } :=
  (tidy.carries.work stable_onOneLine).tidy tidy.values

theorem Tidy.latest (tidy : s.Tidy) (count : Nat) :
    ∀ r ∈ s.log.latest standardOutlets count, r.OnOneLine := by
  intro r member
  rw [Pipeline.latest] at member
  rcases history?_cases s.log with found | found <;> rw [found] at member
  · cases member
  · exact tidy.history.everything r (Ring.mem_latest member)

theorem Tidy.latestOf (tidy : s.Tidy) (name : String) (count : Nat) :
    ∀ r ∈ s.log.latestOf standardOutlets name count, r.OnOneLine := by
  intro r member
  rw [Pipeline.latestOf] at member
  rcases history?_cases s.log with found | found <;> rw [found] at member
  · cases member
  · exact tidy.history.ofSession name r (Ring.mem_latest member)

theorem Tidy.exportOf (tidy : s.Tidy) (name : String) :
    ∀ line ∈ (Text.lines (s.log.exportOf standardOutlets name).toList).map String.ofList,
      IsEntry line := by
  rw [Pipeline.exportOf]
  rcases history?_cases s.log with found | found <;> rw [found]
  · exact fun line member => nomatch member
  · simp only [Option.map_some, Option.getD_some, History.exportOf_eq_join]
    refine isEntry_of_lines _ fun text member => ?_
    obtain ⟨r, kept, rfl⟩ := List.mem_map.1 member
    exact r.isEntry_exported (tidy.history.ofSession name r kept)

theorem Tidy.withStore (tidy : s.Tidy) (files : FileSystem) {store : Store}
    (values : ∀ key value, store.table.find? key = some value → Unbroken value) :
    (s.withStore files store).Tidy :=
  ⟨values, tidy.waiting, tidy.delivering, tidy.history⟩

/-- What a request changes in the table is on one line if its value is. -/
theorem values_of_rewriting {table : Table String} {request : Request} {rewriting : Rewriting}
    (wanted : request.rewriting? table = some rewriting)
    (values : ∀ key value, table.find? key = some value → Unbroken value)
    (given : ∀ key value, request = .put key value ∨ request = .update key value → Unbroken value) :
    ∀ key value, rewriting.table.find? key = some value → Unbroken value := by
  intro key value found
  cases request with
  | put changed written =>
    obtain rfl := Option.some.inj wanted
    rw [Table.find?_insert] at found
    split at found
    · exact Option.some.inj found ▸ given changed written (.inl rfl)
    · exact values key value found
  | update changed written =>
    rw [Request.rewriting?] at wanted
    split at wanted
    · obtain rfl := Option.some.inj wanted
      rw [Table.find?_insert] at found
      split at found
      · exact Option.some.inj found ▸ given changed written (.inr rfl)
      · exact values key value found
    · cases wanted
  | delete changed =>
    rw [Request.rewriting?] at wanted
    split at wanted
    · obtain rfl := Option.some.inj wanted
      rw [Table.find?_erase] at found
      split at found
      · cases found
      · exact values key value found
    · cases wanted
  | _ => cases wanted

end Service

theorem mem_dropLast (front ending : List Char) {value : List Char} {c : Char} (member : c ∈ value)
    (inner : value.getLast? ≠ some c) : c ∈ (front ++ value ++ ending).dropLast := by
  rcases List.eq_nil_or_concat' value with rfl | ⟨init, last, rfl⟩
  · cases member
  · have early : c ∈ init := by
      rcases List.mem_append.1 member with member | member
      · exact member
      · rw [List.mem_singleton.1 member, List.getLast?_concat] at inner
        exact absurd rfl inner
    have shape : front ++ (init ++ [last]) ++ ending = front ++ init ++ (last :: ending) := by
      simp
    rw [shape, List.dropLast_append_of_ne_nil (List.cons_ne_nil last ending)]
    exact List.mem_append_left _ (List.mem_append_right _ early)

/-- A line feed in a value would not be at the end of its line. -/
theorem Request.unbroken_of_pairLine {verb : Verb} {key value : String} {line : List Char}
    (brief : '\n' ∉ line.dropLast) (pair : Request.PairLine verb key value line) :
    Unbroken value := by
  cases pair with
  | @intro indent name gap ending blank separator _ _ _ _ _ _ _ isValue _ =>
    intro member
    have early := mem_dropLast (indent ++ (name ++ blank :: (gap ++ (key.toList ++ [separator]))))
      ending member isValue.2.2
    refine brief ?_
    simpa using early

namespace Service

variable {s : Service}

/-- A refusal fits any line. -/
theorem fits_error (sent : List Char) {reason : String} (unbroken : Unbroken reason) :
    (Response.error reason).Fits sent := by
  refine ⟨(unbroken_append _ _).2 ⟨by decide +kernel, unbroken⟩, .inr ?_⟩
  rw [isRefusal, String.toList_append, List.isPrefixOf_iff_prefix]
  exact List.prefix_append _ _

theorem fits_line {sent : List Char} {text : String} (expected : expectedForm sent = .line)
    (unbroken : Unbroken text) : (Response.line text).Fits sent :=
  ⟨unbroken, .inl expected⟩

/-- A change of the table is answered by a line. -/
theorem fits_of_rewriting {table : Table String} {request : Request} {rewriting : Rewriting}
    (wanted : request.rewriting? table = some rewriting) {sent : List Char}
    (read : Request.read sent = .ok request) : rewriting.answer.Fits sent := by
  have expected : expectedForm sent = .line := by
    rw [expectedForm, read]
    cases request <;> first | rfl | cases wanted
  cases request with
  | put key value =>
    obtain rfl := Option.some.inj wanted
    exact fits_line expected (by decide +kernel)
  | update key value =>
    rw [Request.rewriting?] at wanted
    split at wanted
    · obtain rfl := Option.some.inj wanted
      exact fits_line expected (by decide +kernel)
    · cases wanted
  | delete key =>
    rw [Request.rewriting?] at wanted
    split at wanted
    · obtain rfl := Option.some.inj wanted
      exact fits_line expected (by decide +kernel)
    · cases wanted
  | _ => cases wanted

/-- What a request does to the values of a tidy service, and how it is answered. -/
theorem tidy_of_deed (tidy : s.Tidy) {line : List Char} {request : Request}
    (read : Request.read line = .ok request) (brief : '\n' ∉ line.dropLast) {done : Service}
    {note : Option (Level × String)} {response : Response}
    (deed : Deed s request done note response) :
    (∀ key value, done.store.table.find? key = some value → Unbroken value) ∧
      response.Fits line := by
  cases deed with
  | admitted accepted =>
    exact ⟨tidy.values, fits_line (by rw [expectedForm, read]) (by decide +kernel)⟩
  | turnedAway refused => exact ⟨tidy.values, fits_error line (by decide +kernel)⟩
  | @saved _ rewriting files wanted saved =>
    have given : ∀ key value, request = .put key value ∨ request = .update key value →
        Unbroken value := by
      rintro key value (rfl | rfl)
      · exact Request.unbroken_of_pairLine brief (Request.read_put_iff.1 read)
      · exact Request.unbroken_of_pairLine brief (Request.read_update_iff.1 read)
    exact ⟨values_of_rewriting wanted tidy.values given, fits_of_rewriting wanted read⟩
  | @unsaved _ rewriting files cause wanted failed =>
    have worded : Unbroken (StoreError.disk cause).message := by
      have reason := Store.worded_save s.files s.store.path rewriting.table
      rw [failed] at reason
      exact (unbroken_append _ _).2 ⟨by decide +kernel, reason cause rfl⟩
    exact ⟨tidy.values, fits_error line worded⟩
  | absent wanted missing =>
    have expected : expectedForm line = .line := by
      rw [expectedForm, read]
      cases request <;> first | rfl | exact wanted.elim
    exact ⟨tidy.values, fits_line expected (by decide +kernel)⟩
  | hit found =>
    exact ⟨tidy.values, fits_line (by rw [expectedForm, read]) (tidy.values _ _ found)⟩
  | miss missing =>
    exact ⟨tidy.values, fits_line (by rw [expectedForm, read]) (by decide +kernel)⟩
  | threshold =>
    exact ⟨tidy.values, fits_line (by rw [expectedForm, read]) (flat_levelName _).unbroken⟩
  | thresholdSet level =>
    exact ⟨tidy.values, fits_line (by rw [expectedForm, read]) (by decide +kernel)⟩
  | logs count =>
    refine ⟨tidy.values, by rw [expectedForm, read], ?_⟩
    intro entry member
    obtain ⟨r, kept, rfl⟩ := List.mem_map.1 member
    exact r.isEntry_plain (tidy.latest count r kept)
  | sessionLogs name count =>
    refine ⟨tidy.values, by rw [expectedForm, read], ?_⟩
    intro entry member
    obtain ⟨r, kept, rfl⟩ := List.mem_map.1 member
    exact r.isEntry_plain (tidy.latestOf name count r kept)
  | exportLog name => exact ⟨tidy.values, by rw [expectedForm, read], tidy.exportOf name⟩
  | cleared =>
    exact ⟨tidy.values, fits_line (by rw [expectedForm, read]) (by decide +kernel)⟩
  | sessionCleared name =>
    exact ⟨tidy.values, fits_line (by rw [expectedForm, read]) (by decide +kernel)⟩
  | shutdown =>
    refine ⟨tidy.values, ?_⟩
    change expectedForm line = .farewell
    rw [expectedForm, read]
  | quit =>
    refine ⟨tidy.values, ?_⟩
    change expectedForm line = .farewell
    rw [expectedForm, read]

/-- A line of a client leaves a tidy service tidy, and its answer fits it. -/
theorem tidy_of_handle (tidy : s.Tidy) (origin : Origin) {session : Session}
    (named : Unbroken session.name) {line : List Char} (brief : '\n' ∉ line.dropLast) :
    (s.handle origin session line).1.Tidy ∧ (s.handle origin session line).2.2.Fits line := by
  have carries := tidy.carries.handle stable_onOneLine origin session line fun level message flat =>
    ⟨flat.unbroken, fun name own => Option.some.inj own ▸ named⟩
  obtain ⟨done, note, handling, reached⟩ := s.handling_of_handle origin session line
  rw [reached] at carries ⊢
  have parts : (∀ key value, done.store.table.find? key = some value → Unbroken value) ∧
      (s.handle origin session line).2.2.Fits line := by
    generalize (s.handle origin session line).2.2 = response at handling
    cases handling with
    | @rejected e read =>
      have worded : Flat e.message := by
        refine flat_requestError ?_
        rintro word rfl
        exact Request.flat_of_isWord (Request.unknown_of_read read)
      exact ⟨tidy.values, fits_error line worded.unbroken⟩
    | barred read guest => exact ⟨tidy.values, fits_error line (by decide +kernel)⟩
    | carriedOut read deed => exact tidy_of_deed tidy read brief deed
  refine ⟨carries.tidy ?_, parts.2⟩
  rw [(onlyLogged_noted done origin session.name note).store]
  exact parts.1

/-- All lines of a run are lines, and so are the names of the sessions. -/
def Brief (events : List Event) : Prop :=
  ∀ origin session text, .line origin session text ∈ events →
    '\n' ∉ text.dropLast ∧ Unbroken session.name

/-- A service that is tidy at first stays so, and every answer fits its line. -/
theorem fits_of_converse (tidy : s.Tidy) {events : List Event} (brief : Brief events) :
    ∀ exchange ∈ (s.converse events).2, exchange.response.Fits exchange.line := by
  induction events generalizing s with
  | nil => exact fun exchange member => nomatch member
  | cons event rest inductionHypothesis =>
    have later : Brief rest := fun origin session text member =>
      brief origin session text (List.mem_cons_of_mem event member)
    cases event with
    | line origin session text =>
      obtain ⟨whole, named⟩ := brief origin session text List.mem_cons_self
      obtain ⟨stays, fits⟩ := tidy_of_handle tidy origin named whole
      exact List.forall_mem_cons.2 ⟨fits, inductionHypothesis stays later⟩
    | work => exact inductionHypothesis tidy.work later
    | disk files => exact inductionHypothesis (tidy.withStore files tidy.values) later

/-- In a service whose log has only what it says itself, no answer has a line feed inside a line,
and every entry of a block begins with a bracket, so that it is neither the end of the block nor a
refusal. The bytes sent for answers, one after the other, tell a client that knows its lines exactly
these answers.

Proof: texts of clients come into values, records and answers only as words, as values, and in
quotes, none of which has a line feed; so the service stays tidy with every line, step of the worker
and change of the disk. -/
theorem answers_told_apart {capacity sessionCapacity : Nat}
    (empty : s.log.outside.history = .empty capacity sessionCapacity)
    (nothing : s.log.backlog.toList = []) (idle : s.log.isIdle = true)
    (values : ∀ key value, s.store.table.find? key = some value → Unbroken value)
    {events : List Event} (brief : Brief events) :
    let exchanges := (s.converse events).2
    (∀ exchange ∈ exchanges, ∀ text, exchange.response = .line text → Unbroken text) ∧
      (∀ exchange ∈ exchanges, ∀ entries, exchange.response = .block entries →
        ∀ entry ∈ entries, Unbroken entry ∧ entry.toList.head? = some '[' ∧
          entry ≠ Response.terminator ∧ isRefusal entry = false) ∧
      ∀ chosen : List Exchange, chosen.Sublist exchanges →
        readResponses (chosen.map Exchange.line) (sentBytes (chosen.map Exchange.response)) =
          some (chosen.map Exchange.response) := by
  intro exchanges
  have tidy : s.Tidy := by
    refine ⟨values, ?_, ?_, ?_⟩
    · rw [nothing]
      exact fun r member => nomatch member
    · intro r remaining delivers
      rw [Pipeline.isIdle, delivers] at idle
      cases idle
    · rw [empty]
      exact History.onOneLine_empty capacity sessionCapacity
  have fits := fits_of_converse tidy brief
  refine ⟨?_, ?_, ?_⟩
  · intro exchange member text said
    have fit := fits exchange member
    rw [said] at fit
    exact fit.1
  · intro exchange member entries said entry among
    have fit := fits exchange member
    rw [said] at fit
    have isEntry := fit.2 entry among
    exact ⟨isEntry.unbroken, isEntry.bracket, isEntry.ne_terminator, isEntry.isRefusal⟩
  · intro chosen within
    have told := readResponses_of_fits
      (chosen.map fun exchange => (exchange.line, exchange.response)) fun pair member => by
        obtain ⟨exchange, among, rfl⟩ := List.mem_map.1 member
        exact fits exchange (within.subset among)
    rw [List.map_map, List.map_map] at told
    exact told

/-- A client stores a value and asks for the logs. -/
theorem answers_told_apart_of_block :
    let s : Service :=
      ⟨((Pipeline.create 4 (.ofHistory (.ofFiles .empty) (.empty 4 4) ())).addSink .history).start,
        .inMemory, .everyone, false⟩
    let origin : Origin := ⟨⟨0⟩, 1⟩
    let session : Session := ⟨"conn-1", true⟩
    let events : List Event :=
      [.line origin session "PUT a END\n".toList, .work, .work,
        .line origin session "LOGS 1\n".toList]
    let exchanges := (s.converse events).2
    s.log.outside.history = .empty 4 4 ∧ s.log.backlog.toList = [] ∧ s.log.isIdle = true ∧
      (∀ key value, s.store.table.find? key = some value → Unbroken value) ∧ Brief events ∧
      readResponses (exchanges.map Exchange.line) (sentBytes (exchanges.map Exchange.response)) =
        some [.ok, .block ["[1970-01-01 00:00:00.000] [ INFO] (t:1) <conn-1> PUT a"]] := by
  intro s origin session events exchanges
  have values : ∀ key value, s.store.table.find? key = some value → Unbroken value :=
    fun key value found => nomatch found
  have brief : Brief events := by
    intro origin session text member
    simp only [events, List.mem_cons, Event.line.injEq, reduceCtorEq, List.not_mem_nil, or_false,
      false_or] at member
    rcases member with ⟨-, rfl, rfl⟩ | ⟨-, rfl, rfl⟩
    · exact ⟨by decide +kernel, by decide +kernel⟩
    · exact ⟨by decide +kernel, by decide +kernel⟩
  have told :=
    (answers_told_apart (s := s) rfl rfl rfl values brief).2.2 exchanges (.refl exchanges)
  refine ⟨rfl, rfl, rfl, values, brief, told.trans ?_⟩
  decide +kernel

end Service

end KeyValueService
