import KeyValueService.Proofs.RequestReading
import KeyValueService.Proofs.ServiceDeeds
import KeyValueService.Proofs.StoreAgreement

/-!
# The service as a map

To its authenticated clients the service is one map that all of them share. `Request.serve` says
what a map answers to a request and what it becomes; `Serves` holds of a map, the exchanges of a run
and what the map is in the end if the answers are those of the map, one exchange after the other. A
request whose change cannot be saved is answered with the reason and changes nothing, nor does any
line that is about something else or is no request.

The table of the store is that map at every moment, so a line is served by it (`served_of_handle`),
and so is every run (`serves_converse`).
-/

namespace KeyValueService

open Store

/-- What a map answers to a request about it, and what it becomes. -/
def Request.serve (map : String → Option String) :
    Request → Option (Response × (String → Option String))
  | put key value => some (.ok, assign map key (some value))
  | get key =>
    match map key with
    | some value => some (.line value, map)
    | none => some (.notFound, map)
  | update key value =>
    if (map key).isSome then some (.line "UPDATED", assign map key (some value))
    else some (.notFound, map)
  | delete key =>
    if (map key).isSome then some (.line "DELETED", assign map key none) else some (.notFound, map)
  | _ => none

namespace Service

/-- The change that a request asks for cannot be saved. -/
def CannotSave (s : Service) (request : Request) (cause : DiskError) : Prop :=
  ∃ rewriting files, request.rewriting? s.store.table = some rewriting ∧
    Store.save s.files s.store.path rewriting.table = (files, .error cause)

/-- An exchange as a map has it, and what the map becomes. -/
inductive Served (map : String → Option String) (exchange : Exchange) :
    (String → Option String) → Prop
  | answered {request : Request} {next : String → Option String}
    (read : Request.read exchange.line = .ok request)
    (serves : request.serve map = some (exchange.response, next))
    (saved : ∀ cause, ¬ exchange.before.CannotSave request cause) : Served map exchange next
  | failed {request : Request} {cause : DiskError}
    (read : Request.read exchange.line = .ok request)
    (unsaved : exchange.before.CannotSave request cause)
    (reason : exchange.response = .error (StoreError.disk cause).message) :
    Served map exchange map
  | unrelated (about : ∀ request, Request.read exchange.line = .ok request →
      request.serve map = none) : Served map exchange map

/-- Exchanges as a map has them, one after the other, up to what the map is in the end. -/
inductive Serves :
    (String → Option String) → List Exchange → (String → Option String) → Prop
  | nil (map : String → Option String) : Serves map [] map
  | cons {map next final : String → Option String} {exchange : Exchange} {rest : List Exchange}
    (served : Served map exchange next) (more : Serves next rest final) :
    Serves map (exchange :: rest) final

/-- The exchange changed the value of a key. -/
def Exchange.Writes (key : String) (exchange : Exchange) : Prop :=
  (∃ value, Request.read exchange.line = .ok (.put key value) ∧ exchange.response = .ok) ∨
    (∃ value, Request.read exchange.line = .ok (.update key value) ∧
      exchange.response = .line "UPDATED") ∨
    (Request.read exchange.line = .ok (.delete key) ∧ exchange.response = .line "DELETED")

/-- The change of the table is the change of the map. -/
theorem serve_of_rewriting {table : Table String} {request : Request} {rewriting : Rewriting}
    (wanted : request.rewriting? table = some rewriting) :
    request.serve table.find? = some (rewriting.answer, rewriting.table.find?) := by
  cases request with
  | put key value =>
    obtain rfl := Option.some.inj wanted
    rw [Request.serve, find?_insert_eq]
  | update key value =>
    rw [Request.rewriting?, Table.contains] at wanted
    rw [Request.serve]
    split at wanted
    next present =>
      obtain rfl := Option.some.inj wanted
      rw [if_pos present, find?_insert_eq]
    next => cases wanted
  | delete key =>
    rw [Request.rewriting?, Table.contains] at wanted
    rw [Request.serve]
    split at wanted
    next present =>
      obtain rfl := Option.some.inj wanted
      rw [if_pos present, find?_erase_eq]
    next => cases wanted
  | _ => cases wanted

/-- A key that should have a value and has none is not found. -/
theorem serve_of_absent {table : Table String} {request : Request} {key : String}
    (wanted : request.NeedsPresent key) (missing : table.find? key = none) :
    request.serve table.find? = some (.notFound, table.find?) ∧
      request.rewriting? table = none := by
  cases request with
  | update other value =>
    obtain rfl : other = key := wanted
    simp [Request.serve, Request.rewriting?, Table.contains, missing]
  | delete other =>
    obtain rfl : other = key := wanted
    simp [Request.serve, Request.rewriting?, Table.contains, missing]
  | _ => exact wanted.elim

/-- Without a change to make there is nothing that cannot be saved. -/
theorem not_cannotSave {s : Service} {request : Request}
    (none : request.rewriting? s.store.table = none) (cause : DiskError) :
    ¬ s.CannotSave request cause := by
  rintro ⟨rewriting, files, wanted, -⟩
  rw [none] at wanted
  cases wanted

/-- A request is carried out as the map has it, and the table becomes what the map becomes. -/
theorem served_of_deed {s done : Service} {request : Request} {note : Option (Level × String)}
    {exchange : Exchange} (before : exchange.before = s)
    (read : Request.read exchange.line = .ok request)
    (deed : Deed s request done note exchange.response) :
    Served s.store.table.find? exchange done.store.table.find? := by
  subst before
  have unrelated (foreign : request.serve exchange.before.store.table.find? = none) :
      Served exchange.before.store.table.find? exchange exchange.before.store.table.find? := by
    refine .unrelated fun other same => ?_
    obtain rfl := Except.ok.inj (read.symm.trans same)
    exact foreign
  generalize answer : exchange.response = response at deed
  cases deed with
  | saved wanted done =>
    refine .answered read (answer ▸ serve_of_rewriting wanted) ?_
    rintro cause ⟨other, files, same, failed⟩
    obtain rfl := Option.some.inj (wanted.symm.trans same)
    rw [done] at failed
    cases failed
  | unsaved wanted failed => exact .failed read ⟨_, _, wanted, failed⟩ answer
  | absent wanted missing =>
    obtain ⟨serves, unchanged⟩ := serve_of_absent wanted missing
    exact .answered read (answer ▸ serves) (not_cannotSave unchanged)
  | hit found =>
    refine .answered read ?_ (not_cannotSave rfl)
    rw [Request.serve, found, answer]
  | miss missing =>
    refine .answered read ?_ (not_cannotSave rfl)
    rw [Request.serve, missing, answer]
  | _ => exact unrelated rfl

/-- A line of an authenticated client is handled as the map has it. -/
theorem served_of_handle (s : Service) (origin : Origin) {session : Session}
    (authenticated : session.isAuthenticated = true) (text : List Char) :
    Served s.store.table.find? ⟨s, session, text, (s.handle origin session text).2.2⟩
      (s.handle origin session text).1.store.table.find? := by
  obtain ⟨done, note, handling, reached⟩ := s.handling_of_handle origin session text
  rw [reached, (done.onlyLogged_noted origin session.name note).store]
  generalize (s.handle origin session text).2.2 = response at handling
  cases handling with
  | rejected read =>
    refine .unrelated fun request same => ?_
    cases read.symm.trans same
  | barred read guest => exact Bool.noConfusion (authenticated.symm.trans guest)
  | carriedOut read deed => exact served_of_deed rfl read deed

/-- All clients of a run are authenticated. -/
def Trusted (events : List Event) : Prop :=
  ∀ origin session text, .line origin session text ∈ events → session.isAuthenticated = true

/-- Every run is served by the map that the table of the store is. -/
theorem serves_converse (s : Service) {events : List Event} (trusted : Trusted events) :
    Serves s.store.table.find? (s.converse events).2
      (s.converse events).1.store.table.find? := by
  induction events generalizing s with
  | nil => exact .nil _
  | cons event rest inductionHypothesis =>
    have later : Trusted rest := fun origin session text member =>
      trusted origin session text (List.mem_cons_of_mem event member)
    cases event with
    | line origin session text =>
      have authenticated := trusted origin session text List.mem_cons_self
      exact .cons (s.served_of_handle origin authenticated text) (inductionHypothesis _ later)
    | work => exact inductionHypothesis { s with log := s.log.work standardOutlets } later
    | disk files => exact inductionHypothesis (s.withStore files s.store) later

theorem assign_of_ne {map : String → Option String} {key other : String} (different : key ≠ other)
    (value : Option String) : assign map other value key = map key :=
  if_neg different

theorem assign_self (map : String → Option String) (key : String) (value : Option String) :
    assign map key value key = value :=
  if_pos rfl

variable {map next final : String → Option String} {exchange : Exchange} {exchanges : List Exchange}
  {key value : String}

/-- An exchange that did not change a key leaves its value. -/
theorem Served.keeps (served : Served map exchange next) (kept : ¬ exchange.Writes key) :
    next key = map key := by
  cases served with
  | failed read unsaved reason => rfl
  | unrelated about => rfl
  | @answered request _ read serves saved =>
    cases request with
    | put other value =>
      obtain ⟨answer, rfl⟩ := Prod.mk.inj (Option.some.inj serves)
      refine assign_of_ne (fun same => kept ?_) _
      exact .inl ⟨value, same ▸ read, answer.symm⟩
    | get other =>
      rw [Request.serve] at serves
      split at serves <;> obtain ⟨-, rfl⟩ := Prod.mk.inj (Option.some.inj serves) <;> rfl
    | update other value =>
      rw [Request.serve] at serves
      split at serves
      · obtain ⟨answer, rfl⟩ := Prod.mk.inj (Option.some.inj serves)
        refine assign_of_ne (fun same => kept ?_) _
        exact .inr (.inl ⟨value, same ▸ read, answer.symm⟩)
      · obtain ⟨-, rfl⟩ := Prod.mk.inj (Option.some.inj serves)
        rfl
    | delete other =>
      rw [Request.serve] at serves
      split at serves
      · obtain ⟨answer, rfl⟩ := Prod.mk.inj (Option.some.inj serves)
        refine assign_of_ne (fun same => kept ?_) _
        exact .inr (.inr ⟨same ▸ read, answer.symm⟩)
      · obtain ⟨-, rfl⟩ := Prod.mk.inj (Option.some.inj serves)
        rfl
    | _ => cases serves

theorem Serves.keeps (serves : Serves map exchanges final)
    (kept : ∀ exchange ∈ exchanges, ¬ exchange.Writes key) : final key = map key := by
  induction serves with
  | nil map => rfl
  | cons served more inductionHypothesis =>
    obtain ⟨first, others⟩ := List.forall_mem_cons.1 kept
    exact (inductionHypothesis others).trans (served.keeps first)

theorem Serves.split {more : List Exchange} (serves : Serves map (exchanges ++ more) final) :
    ∃ between, Serves map exchanges between ∧ Serves between more final := by
  induction exchanges generalizing map with
  | nil => exact ⟨map, .nil map, serves⟩
  | cons exchange rest inductionHypothesis =>
    cases serves with
    | cons served others =>
      obtain ⟨between, front, back⟩ := inductionHypothesis others
      exact ⟨between, .cons served front, back⟩

theorem error_ne_ok (reason : String) : Response.error reason ≠ .ok := by
  intro same
  have texts : ("ERROR: " ++ reason).toList = "OK".toList :=
    congrArg String.toList (Response.line.inj same)
  simp at texts

/-- A value that was stored is the value of its key. -/
theorem Served.stored (served : Served map exchange next)
    (read : Request.read exchange.line = .ok (.put key value)) (answer : exchange.response = .ok) :
    next key = some value := by
  cases served with
  | answered asked serves saved =>
    obtain rfl := Except.ok.inj (read.symm.trans asked)
    obtain ⟨-, rfl⟩ := Prod.mk.inj (Option.some.inj serves)
    exact assign_self map key (some value)
  | failed asked unsaved reason => exact absurd (reason.symm.trans answer) (error_ne_ok _)
  | unrelated about => cases about _ read

/-- The value of a key is what it is asked for. -/
theorem Served.found (served : Served map exchange next)
    (read : Request.read exchange.line = .ok (.get key)) (present : map key = some value) :
    exchange.response = .line value := by
  cases served with
  | answered asked serves saved =>
    obtain rfl := Except.ok.inj (read.symm.trans asked)
    rw [Request.serve, present] at serves
    exact (Prod.mk.inj (Option.some.inj serves)).1.symm
  | failed asked unsaved reason =>
    obtain rfl := Except.ok.inj (read.symm.trans asked)
    exact absurd unsaved (not_cannotSave rfl _)
  | unrelated about =>
    have foreign := about _ read
    rw [Request.serve, present] at foreign
    cases foreign

/-- What is stored under a key is found under it, as long as no exchange between changes the key. -/
theorem Serves.remembers {before between after : List Exchange} {put get : Exchange}
    (serves : Serves map (before ++ put :: (between ++ get :: after)) final)
    (stores : Request.read put.line = .ok (.put key value)) (stored : put.response = .ok)
    (kept : ∀ exchange ∈ between, ¬ exchange.Writes key)
    (asks : Request.read get.line = .ok (.get key)) : get.response = .line value := by
  obtain ⟨start, -, later⟩ := serves.split
  cases later with
  | cons storing afterwards =>
    obtain ⟨now, meanwhile, asking⟩ := afterwards.split
    cases asking with
    | cons finding _ =>
      refine finding.found asks ?_
      rw [meanwhile.keeps kept, storing.stored stores stored]

/-- To authenticated clients the service is one map, the one that the table of the store holds:
every run is answered by that map, whatever the file system does meanwhile, and the map is the table
again in the end. A line gives a key the text behind the one blank that follows the key, up to the
run of line-end characters. So a value that was stored is found again as it was, until an exchange
changes its key. -/
theorem implements_map (s : Service) {events : List Event} (trusted : Trusted events) :
    let reached := s.converse events
    Serves s.store.table.find? reached.2 reached.1.store.table.find? ∧
      (∀ line key value,
        Request.read line = .ok (.put key value) ↔ Request.PairLine .put key value line) ∧
      (∀ line key value,
        Request.read line = .ok (.update key value) ↔ Request.PairLine .update key value line) ∧
      (∀ line key, Request.read line = .ok (.get key) ↔ Request.WordLine .get key line) ∧
      (∀ line key, Request.read line = .ok (.delete key) ↔ Request.WordLine .delete key line) ∧
      ∀ before put between get after, reached.2 = before ++ put :: (between ++ get :: after) →
        ∀ key value, Request.IsWord key → Request.IsValue value →
          put.line = ("PUT " ++ key ++ " " ++ value).toList → put.response = .ok →
          (∀ exchange ∈ between, ¬ exchange.Writes key) →
          get.line = ("GET " ++ key).toList → get.response = .line value := by
  intro reached
  have serves := s.serves_converse trusted
  refine ⟨serves, fun _ _ _ => Request.read_put_iff, fun _ _ _ => Request.read_update_iff,
    fun _ _ => Request.read_get_iff, fun _ _ => Request.read_delete_iff, ?_⟩
  intro before put between get after parts key value isWord isValue putLine stored kept getLine
  rw [show (s.converse events).2 = _ from parts] at serves
  have stores : Request.read put.line = .ok (.put key value) := by
    rw [putLine]
    exact Request.read_put_iff.2 (Request.pairLine_canonical .put isWord isValue)
  have asks : Request.read get.line = .ok (.get key) := by
    rw [getLine]
    exact Request.read_get_iff.2 (Request.wordLine_canonical .get isWord)
  exact serves.remembers stores stored kept asks

/-- One client stores a value, and another one finds it. -/
theorem implements_map_of_two :
    let s : Service :=
      ⟨.create 4 (.ofHistory (.ofFiles .empty) (.empty 4 4) ()), .inMemory, .everyone, false⟩
    let origin : Origin := ⟨⟨0⟩, 1⟩
    let events : List Event :=
      [.line origin ⟨"conn-1", true⟩ "PUT a  b\r\n".toList, .work,
        .line origin ⟨"conn-2", true⟩ " get a ".toList]
    let reached := s.converse events
    Trusted events ∧ Serves s.store.table.find? reached.2 reached.1.store.table.find? ∧
      reached.2.map Exchange.response = [.ok, .line " b"] := by
  intro s origin events reached
  have trusted : Trusted events := by
    intro origin session text member
    simp only [events, List.mem_cons, Event.line.injEq, reduceCtorEq, List.not_mem_nil, or_false,
      false_or] at member
    rcases member with ⟨-, rfl, -⟩ | ⟨-, rfl, -⟩
    · rfl
    · rfl
  exact ⟨trusted, (s.implements_map trusted).1, by decide +kernel⟩

end Service

end KeyValueService
