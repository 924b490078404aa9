import KeyValueService.Proofs.GuestIsolation

/-!
# What a line makes the service do

A line is refused or carried out, and then noted in the logs. `Handling` lists all ways in which
that can go, each with the service before the note, the note and the answer; for a request that is
carried out it rests on `Deed`. The two theorems `deed_of_carryOut` and `handling_of_handle` say
that there is no other way, so that what is true of every answer, or kept by every line, is shown
case by case from these lists alone.

Lines come from any clients in any order, while the worker of the log takes its steps and the file
system changes under the store, so that saving may fail at any time (`Service.converse`).
-/

namespace KeyValueService

/-- A change that a request makes to the table: the key it is about, the table afterwards, and the
answer once that is saved. -/
structure Rewriting where
  key : String
  table : Table String
  answer : Response

namespace Request

/-- The change of the table that a request asks for, if it asks for one that can be made. -/
def rewriting? (table : Table String) : Request → Option Rewriting
  | put key value => some ⟨key, table.insert key value, .ok⟩
  | update key value =>
    if table.contains key then some ⟨key, table.insert key value, .line "UPDATED"⟩ else none
  | delete key =>
    if table.contains key then some ⟨key, table.erase key, .line "DELETED"⟩ else none
  | _ => none

/-- Whether a request is about a key that must have a value. -/
def NeedsPresent (key : String) : Request → Prop
  | update other _ => other = key
  | delete other => other = key
  | _ => False

end Request

namespace Service

/-- The service with another store, on a file system that has changed. -/
def withStore (s : Service) (files : FileSystem) (store : Store) : Service :=
  { s with store, log.outside.host.files := files }

/-- The service after a note in the logs, if there is one. -/
def noted (s : Service) (origin : Origin) (session : String) : Option (Level × String) → Service
  | none => s
  | some (level, message) => s.logEvent origin level session message

theorem onlyLogged_noted (s : Service) (origin : Origin) (session : String)
    (note : Option (Level × String)) : OnlyLogged s (s.noted origin session note) := by
  cases note with
  | none => exact OnlyLogged.refl s
  | some note => exact s.onlyLogged_logEvent origin note.1 session note.2

/-- How a request is carried out: the service before the note, the note, and the answer. -/
inductive Deed (s : Service) : Request → Service → Option (Level × String) → Response → Prop
  | admitted {token : String} (accepted : s.gate.accepts token = true) :
    Deed s (.auth token) s (some (.info, "authenticated")) .ok
  | turnedAway {token : String} (refused : s.gate.accepts token = false) :
    Deed s (.auth token) s (some (.warn, "authentication failed")) (.error Gate.refusal)
  | saved {request : Request} {rewriting : Rewriting} {files : FileSystem}
    (wanted : request.rewriting? s.store.table = some rewriting)
    (done : Store.save s.files s.store.path rewriting.table = (files, .ok ())) :
    Deed s request (s.withStore files { s.store with table := rewriting.table })
      (some (.info, request.verb.name ++ " " ++ rewriting.key)) rewriting.answer
  | unsaved {request : Request} {rewriting : Rewriting} {files : FileSystem} {cause : DiskError}
    (wanted : request.rewriting? s.store.table = some rewriting)
    (failed : Store.save s.files s.store.path rewriting.table = (files, .error cause)) :
    Deed s request (s.withStore files s.store)
      (some (.error, request.verb.name ++ " failed: " ++ (StoreError.disk cause).message))
      (.error (StoreError.disk cause).message)
  | absent {request : Request} {key : String} (wanted : request.NeedsPresent key)
    (missing : s.store.table.find? key = none) : Deed s request s none .notFound
  | hit {key value : String} (found : s.store.table.find? key = some value) :
    Deed s (.get key) s (some (.debug, Verb.get.name ++ " " ++ key ++ " hit")) (.line value)
  | miss {key : String} (missing : s.store.table.find? key = none) :
    Deed s (.get key) s (some (.debug, Verb.get.name ++ " " ++ key ++ " miss")) .notFound
  | threshold : Deed s (.level none) s none (.line s.log.threshold.name)
  | thresholdSet (level : Level) :
    Deed s (.level (some level)) { s with log := s.log.setThreshold level }
      (some (.info, "threshold set to " ++ level.name)) .ok
  | logs (count : Nat) :
    Deed s (.logs count) s none
      (.block ((s.log.latest standardOutlets count).map Record.plain))
  | sessionLogs (name : String) (count : Nat) :
    Deed s (.sessionLogs name count) s none
      (.block ((s.log.latestOf standardOutlets name count).map Record.plain))
  | exportLog (name : String) :
    Deed s (.exportLog name) s none
      (.block ((Text.lines (s.log.exportOf standardOutlets name).toList).map String.ofList))
  | cleared :
    Deed s (.clear .everything) { s with log := s.log.clear standardOutlets }
      (some (.info, "cleared all in-memory logs")) .ok
  | sessionCleared (name : String) :
    Deed s (.clear (.session name))
      { s with log := (s.log.clearSession standardOutlets name).1 }
      (some (.info, "cleared session " ++ name)) .ok
  | shutdown :
    Deed s .shutdown { s with shutdownRequested := true } (some (.warn, "shutdown requested"))
      .farewell
  | quit : Deed s .quit s none .farewell

/-- How a line is handled: the service before the note, the note, and the answer. -/
inductive Handling (s : Service) (session : Session) (line : List Char) :
    Service → Option (Level × String) → Response → Prop
  | rejected {e : RequestError} (read : Request.read line = .error e) :
    Handling s session line s (some (.warn, "rejected command: " ++ e.message)) (.error e.message)
  | barred {request : Request} (read : Request.read line = .ok request)
    (guest : session.isAuthenticated = false) :
    Handling s session line s (some (.warn, request.verb.name ++ " before AUTH refused"))
      (.error "authentication required")
  | carriedOut {request : Request} {done : Service} {note : Option (Level × String)}
    {response : Response} (read : Request.read line = .ok request)
    (deed : Deed s request done note response) : Handling s session line done note response

/-- A change of a key that must have a value, where the table afterwards is given. -/
theorem deed_of_changePresent (s : Service) (origin : Origin) (session : Session)
    {request : Request} {key done : String} {table : Table String}
    {operation : FileSystem → Store → FileSystem × Store × Except StoreError Bool}
    (about : request.NeedsPresent key)
    (wanted : s.store.table.contains key = true →
      request.rewriting? s.store.table = some ⟨key, table, .line done⟩)
    {undo : String → Table String → Table String}
    (restores : ∀ {old}, s.store.table.find? key = some old → undo old table = s.store.table)
    (operates : ∀ files, operation files s.store =
      match s.store.table.find? key with
      | none => (files, s.store, .ok false)
      | some old =>
        match s.store.commitBy Store.save files table (undo old) with
        | (files, store, .ok ()) => (files, store, .ok true)
        | (files, store, .error e) => (files, store, .error e)) :
    let reached := s.changePresent origin session request.verb key done operation
    ∃ after note, Deed s request after note reached.2 ∧
      reached.1 = after.noted origin session.name note := by
  dsimp only
  rw [changePresent, change, operates]
  cases had : s.store.table.find? key with
  | none => exact ⟨s, none, .absent about had, rfl⟩
  | some old =>
    have present : s.store.table.contains key = true := by rw [Table.contains, had]; rfl
    dsimp only
    rw [Store.commitBy_of_undo (restores had)]
    rcases outcome : Store.save s.files s.store.path table with ⟨files, cause | ⟨⟩⟩
    · exact ⟨_, _, .unsaved (wanted present) outcome, rfl⟩
    · exact ⟨_, _, .saved (wanted present) outcome, rfl⟩

/-- There is no other way to carry out a request. -/
theorem deed_of_carryOut (s : Service) (origin : Origin) (session : Session) (request : Request) :
    ∃ done note, Deed s request done note (s.carryOut origin session request).2.2 ∧
      (s.carryOut origin session request).1 = done.noted origin session.name note := by
  cases request with
  | auth token =>
    rw [carryOut, authenticate]
    cases accepted : s.gate.accepts token with
    | true => exact ⟨_, _, .admitted accepted, rfl⟩
    | false => exact ⟨_, _, .turnedAway accepted, rfl⟩
  | put key value =>
    have wanted : (Request.put key value).rewriting? s.store.table =
        some ⟨key, s.store.table.insert key value, .ok⟩ := rfl
    rw [carryOut, put, change, Store.put, Store.putBy,
      Store.commitBy_of_undo (Store.undoPut_insert s.store.table key value)]
    rcases outcome : Store.save s.files s.store.path (s.store.table.insert key value) with
      ⟨files, cause | ⟨⟩⟩
    · exact ⟨_, _, .unsaved wanted outcome, rfl⟩
    · exact ⟨_, _, .saved wanted outcome, rfl⟩
  | get key =>
    rw [carryOut, get, Store.get?]
    cases found : s.store.table.find? key with
    | some value => exact ⟨_, _, .hit found, rfl⟩
    | none => exact ⟨_, _, .miss found, rfl⟩
  | delete key =>
    refine deed_of_changePresent s origin session rfl (fun present => ?_)
      Table.insert_erase_of_find? fun files => rfl
    rw [Request.rewriting?, if_pos present]
  | update key value =>
    refine deed_of_changePresent s origin session rfl (fun present => ?_)
      (fun had => Table.insert_insert_of_find? had value) fun files => rfl
    rw [Request.rewriting?, if_pos present]
  | level level =>
    cases level with
    | none => exact ⟨_, _, .threshold, rfl⟩
    | some level => exact ⟨_, _, .thresholdSet level, rfl⟩
  | logs count => exact ⟨_, _, .logs count, rfl⟩
  | sessionLogs name count => exact ⟨_, _, .sessionLogs name count, rfl⟩
  | exportLog name => exact ⟨_, _, .exportLog name, rfl⟩
  | clear scope =>
    cases scope with
    | everything => exact ⟨_, _, .cleared, rfl⟩
    | session name => exact ⟨_, _, .sessionCleared name, rfl⟩
  | shutdown => exact ⟨_, _, .shutdown, rfl⟩
  | quit => exact ⟨_, _, .quit, rfl⟩

/-- There is no other way to handle a line. -/
theorem handling_of_handle (s : Service) (origin : Origin) (session : Session) (line : List Char) :
    ∃ done note, Handling s session line done note (s.handle origin session line).2.2 ∧
      (s.handle origin session line).1 = done.noted origin session.name note := by
  rw [handle]
  cases read : Request.read line with
  | error e => exact ⟨_, _, .rejected read, rfl⟩
  | ok request =>
    dsimp only
    rw [execute]
    cases allowed : session.isAuthenticated || request.isFree with
    | true =>
      obtain ⟨done, note, deed, reached⟩ := s.deed_of_carryOut origin session request
      exact ⟨done, note, .carriedOut read deed, reached⟩
    | false => exact ⟨_, _, .barred read (Bool.or_eq_false_iff.1 allowed).1, rfl⟩

/-- What happens to a service: a line of a client comes, the worker of the log takes a step, or the
file system is changed from outside. -/
inductive Event
  | line (origin : Origin) (session : Session) (text : List Char)
  | work
  | disk (files : FileSystem)

/-- A line that was answered: the service that it came to, the client, the line and the answer. -/
structure Exchange where
  before : Service
  session : Session
  line : List Char
  response : Response

/-- The service after an event, and the exchange if a line was answered. -/
def Event.apply (s : Service) : Event → Service × Option Exchange
  | line origin session text =>
    let (after, _, response) := s.handle origin session text
    (after, some ⟨s, session, text, response⟩)
  | work => ({ s with log := s.log.work standardOutlets }, none)
  | disk files => (s.withStore files s.store, none)

/-- What happens, one after the other, with all exchanges in order. -/
def converse (s : Service) : List Event → Service × List Exchange
  | [] => (s, [])
  | event :: rest =>
    let (s, exchange) := event.apply s
    let (s, exchanges) := s.converse rest
    (s, exchange.toList ++ exchanges)

end Service

end KeyValueService
