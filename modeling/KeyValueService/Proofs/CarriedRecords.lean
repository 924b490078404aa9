import KeyValueService.Proofs.KeptRecords
import KeyValueService.Proofs.RequestReading
import KeyValueService.Proofs.SaveRefusals
import KeyValueService.Proofs.ServiceDeeds

/-!
# Records on their way

What a service notes in the logs is flat, whatever a client sends: it repeats words and quotes and
nothing else (`Service.flat_of_handling`). A note becomes a record, which waits, is delivered, and is
consumed by the history. So a property of all records that are made from notes goes with them, and one
of the history that is stable under consuming such records and under clearing stays (`Service.Carries`).
-/

namespace KeyValueService

theorem Request.flat_of_isWord {word : String} (isWord : Request.IsWord word) : Flat word := by
  refine flat_of_not_mem fun c breaks member => ?_
  have solid := isWord.2 c member
  rcases breaks with rfl | rfl
  · exact Bool.noConfusion (Text.isBlank_lineFeed.symm.trans solid)
  · exact Bool.noConfusion (Text.isBlank_carriageReturn.symm.trans solid)

namespace Service

variable {s : Service}

/-- The key that a change of the table is about is a word. -/
theorem isWord_of_rewriting {table : Table String} {request : Request} {rewriting : Rewriting}
    (wellFormed : request.WellFormed) (wanted : request.rewriting? table = some rewriting) :
    Request.IsWord rewriting.key := by
  cases request with
  | put key value =>
    obtain rfl := Option.some.inj wanted
    exact wellFormed.1
  | update key value =>
    rw [Request.rewriting?] at wanted
    split at wanted
    · obtain rfl := Option.some.inj wanted
      exact wellFormed.1
    · cases wanted
  | delete key =>
    rw [Request.rewriting?] at wanted
    split at wanted
    · obtain rfl := Option.some.inj wanted
      exact wellFormed
    · cases wanted
  | _ => cases wanted

/-- What is noted of a request that is carried out. -/
theorem flat_of_deed {request : Request} (wellFormed : request.WellFormed) {done : Service}
    {note : Option (Level × String)} {response : Response} (deed : Deed s request done note response) :
    ∀ noted ∈ note, Flat noted.2 := by
  have silent : ∀ noted ∈ (none : Option (Level × String)), Flat noted.2 :=
    fun noted member => absurd member (Option.not_mem_none noted)
  cases deed with
  | admitted accepted =>
    rintro _ ⟨⟩
    decide +kernel
  | turnedAway refused =>
    rintro _ ⟨⟩
    decide +kernel
  | saved wanted saved =>
    rintro _ ⟨⟩
    simp only [flat_append, flat_verbName, Request.flat_of_isWord (isWord_of_rewriting wellFormed wanted),
      true_and, and_true]
    decide +kernel
  | @unsaved _ rewriting files cause wanted failed =>
    have worded : Flat cause.message := by
      have named := Store.named_save s.files s.store.path rewriting.table
      rw [failed] at named
      exact DiskError.flat_message (named cause rfl)
    have reason : Flat (StoreError.disk cause).message :=
      (flat_append _ _).2 ⟨by decide +kernel, worded⟩
    rintro _ ⟨⟩
    simp only [flat_append, flat_verbName, reason, true_and, and_true]
    decide +kernel
  | hit found =>
    rintro _ ⟨⟩
    simp only [flat_append, flat_verbName, Request.flat_of_isWord wellFormed, true_and]
    decide +kernel
  | miss missing =>
    rintro _ ⟨⟩
    simp only [flat_append, flat_verbName, Request.flat_of_isWord wellFormed, true_and]
    decide +kernel
  | thresholdSet level =>
    rintro _ ⟨⟩
    simp only [flat_append, flat_levelName, and_true]
    decide +kernel
  | cleared =>
    rintro _ ⟨⟩
    decide +kernel
  | sessionCleared name =>
    rintro _ ⟨⟩
    simp only [flat_append, Request.flat_of_isWord wellFormed.1, and_true]
    decide +kernel
  | shutdown =>
    rintro _ ⟨⟩
    decide +kernel
  | absent wanted missing => exact silent
  | threshold => exact silent
  | logs count => exact silent
  | sessionLogs name count => exact silent
  | exportLog name => exact silent
  | quit => exact silent

/-- What is noted of a line, whatever the line. -/
theorem flat_of_handling {session : Session} {line : List Char} {done : Service}
    {note : Option (Level × String)} {response : Response}
    (handling : Handling s session line done note response) : ∀ noted ∈ note, Flat noted.2 := by
  cases handling with
  | @rejected e read =>
    rintro _ ⟨⟩
    refine (flat_append _ _).2 ⟨by decide +kernel, flat_requestError ?_⟩
    rintro word rfl
    exact Request.flat_of_isWord (Request.unknown_of_read read)
  | barred read guest =>
    rintro _ ⟨⟩
    exact (flat_append _ _).2 ⟨flat_verbName _, by decide +kernel⟩
  | carriedOut read deed => exact flat_of_deed (Request.wellFormed_of_read read) deed

/-- The history that answers queries, if one does, is the one among the standard sinks. -/
theorem history?_cases (log : ServiceLog) :
    log.history? standardOutlets = none ∨
      log.history? standardOutlets = some (.history, log.outside.history) := by
  rcases found : log.history? standardOutlets with _ | ⟨sink, h⟩
  · exact .inl rfl
  refine .inr ?_
  obtain ⟨sink, -, own⟩ := List.exists_of_findSome?_eq_some found
  cases sink with
  | console => cases own
  | history =>
    cases own
    rfl
  | file => cases own
  | other sink => exact sink.elim

/-- A property of histories that is kept when a record with a property is consumed, and when records are
forgotten. -/
structure Stable (P : Record → Prop) (H : History → Prop) : Prop where
  consume : ∀ {h : History} {r : Record}, H h → P r → H (h.consume r).1
  clear : ∀ {h : History}, H h → H h.clear
  clearSession : ∀ {h : History} (name : String), H h → H (h.clearSession name).1

/-- Every record that waits or is being delivered has a property, and the history has one of its own. -/
structure Carries (P : Record → Prop) (H : History → Prop) (s : Service) : Prop where
  waiting : ∀ r ∈ s.log.backlog.toList, P r
  delivering : ∀ r remaining, s.log.worker = .delivering r remaining → P r
  history : H s.log.outside.history

namespace Carries

variable {P : Record → Prop} {H : History → Prop}

/-- A log in which nothing is under way carries what its history has. -/
theorem of_idle (nothing : s.log.backlog.toList = []) (idle : s.log.isIdle = true)
    (history : H s.log.outside.history) : s.Carries P H where
  waiting r member := by
    rw [nothing] at member
    cases member
  delivering r remaining delivers := by
    rw [Pipeline.isIdle, delivers] at idle
    cases idle
  history := history

theorem noted (carries : s.Carries P H) {origin : Origin} {session : String}
    {note : Option (Level × String)}
    (added : ∀ noted ∈ note, P (.capture origin noted.1 session noted.2)) :
    (s.noted origin session note).Carries P H := by
  cases note with
  | none => exact carries
  | some note =>
    rw [Service.noted, logEvent_eq]
    split
    next =>
      refine ⟨fun r member => ?_, carries.delivering, carries.history⟩
      rw [Pipeline.enqueue, Backlog.toList_push] at member
      rcases List.mem_append.1 member with member | member
      · refine carries.waiting r ?_
        split at member
        · exact List.mem_of_mem_tail member
        · exact member
      · rw [List.mem_singleton.1 member]
        exact added note rfl
    next => exact carries

/-- The worker hands on what there is. -/
theorem work (carries : s.Carries P H) (stable : Stable P H) :
    Carries P H { s with log := s.log.work standardOutlets } := by
  rw [Pipeline.work]
  split
  next => exact carries
  next r sink remaining delivers =>
    have delivered := carries.delivering r _ delivers
    refine ⟨carries.waiting, ?_, ?_⟩
    · rintro other rest ⟨⟩
      exact delivered
    · rcases history_deliver s.log.outside r sink with same | consumed
      · exact same ▸ carries.history
      · exact consumed ▸ stable.consume carries.history delivered
  next => exact ⟨carries.waiting, fun _ _ delivers => (nomatch delivers), carries.history⟩
  next =>
    split
    next => exact carries
    next r backlog taken =>
      have parts := Backlog.toList_of_pop? taken
      refine ⟨fun other member => ?_, ?_, carries.history⟩
      · exact carries.waiting other (parts ▸ List.mem_cons_of_mem r member)
      · rintro other rest ⟨⟩
        exact carries.waiting r (parts ▸ List.mem_cons_self)

theorem clear (carries : s.Carries P H) (stable : Stable P H) :
    Carries P H { s with log := s.log.clear standardOutlets } := by
  rw [Pipeline.clear]
  rcases history?_cases s.log with found | found <;> rw [found]
  · exact carries
  · exact ⟨carries.waiting, carries.delivering, stable.clear carries.history⟩

theorem clearSession (carries : s.Carries P H) (stable : Stable P H) (name : String) :
    Carries P H { s with log := (s.log.clearSession standardOutlets name).1 } := by
  rw [Pipeline.clearSession]
  rcases history?_cases s.log with found | found <;> rw [found]
  · exact carries
  · exact ⟨carries.waiting, carries.delivering, stable.clearSession name carries.history⟩

/-- What a request does to the logs, before it is noted. -/
theorem of_deed (carries : s.Carries P H) (stable : Stable P H) {request : Request} {done : Service}
    {note : Option (Level × String)} {response : Response} (deed : Deed s request done note response) :
    done.Carries P H := by
  cases deed with
  | saved wanted saved => exact ⟨carries.waiting, carries.delivering, carries.history⟩
  | unsaved wanted failed => exact ⟨carries.waiting, carries.delivering, carries.history⟩
  | thresholdSet level => exact ⟨carries.waiting, carries.delivering, carries.history⟩
  | cleared => exact carries.clear stable
  | sessionCleared name => exact carries.clearSession stable name
  | shutdown => exact ⟨carries.waiting, carries.delivering, carries.history⟩
  | _ => exact carries

/-- A line adds at most one record, with a flat message. -/
theorem handle (carries : s.Carries P H) (stable : Stable P H) (origin : Origin) (session : Session)
    (line : List Char)
    (added : ∀ level message, Flat message → P (.capture origin level session.name message)) :
    (s.handle origin session line).1.Carries P H := by
  obtain ⟨done, note, handling, reached⟩ := s.handling_of_handle origin session line
  rw [reached]
  have before : done.Carries P H := by
    generalize (s.handle origin session line).2.2 = response at handling
    cases handling with
    | rejected read => exact carries
    | barred read guest => exact carries
    | carriedOut read deed => exact carries.of_deed stable deed
  exact before.noted fun noted member => added noted.1 noted.2 (flat_of_handling handling noted member)

/-- Whatever happens, by induction on it. -/
theorem converse (carries : s.Carries P H) (stable : Stable P H) {events : List Event}
    (added : ∀ origin session text, .line origin session text ∈ events → ∀ level message,
      Flat message → P (.capture origin level session.name message)) :
    (s.converse events).1.Carries P H := by
  induction events generalizing s with
  | nil => exact carries
  | cons event rest inductionHypothesis =>
    have later : ∀ origin session text, .line origin session text ∈ rest → ∀ level message,
        Flat message → P (.capture origin level session.name message) :=
      fun origin session text member => added origin session text (List.mem_cons_of_mem event member)
    cases event with
    | line origin session text =>
      exact inductionHypothesis
        (carries.handle stable origin session text (added origin session text List.mem_cons_self)) later
    | work => exact inductionHypothesis (carries.work stable) later
    | disk files =>
      exact inductionHypothesis ⟨carries.waiting, carries.delivering, carries.history⟩ later

end Carries

end Service

end KeyValueService
