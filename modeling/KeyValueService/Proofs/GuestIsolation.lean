import KeyValueService.Service.Basic
import Mathlib.Data.List.Induction

/-!
# What a client learns and changes before it shows a token

A service with accepted tokens keeps its clients apart from everything else until they show
one. The answer to each of their lines is a function of the line and the tokens
(`TokenSet.guestAnswer`), and all that a line leaves behind is a warning under the name of
the client's session (`guestWarning`).

Clients come, send lines and are answered in any order, while the worker of the log takes
its steps in between (`Clientele.run`). The gate stays the same throughout, so a client is
let in by the first line with an accepted token and by nothing else, and stays let in.
-/

namespace KeyValueService

open Bytes

namespace TokenSet

/-- Whether a line shows an accepted token. -/
def admits (hash : String → Digest) (tokens : TokenSet) (line : List Char) : Bool :=
  match Request.read line with
  | .ok (.auth token) => tokens.accepts hash token
  | _ => false

/-- The answer to a line of a client that has not shown an accepted token yet. -/
def guestAnswer (hash : String → Digest) (tokens : TokenSet) (line : List Char) : Response :=
  match Request.read line with
  | .error e => .error e.message
  | .ok (.auth token) => if tokens.accepts hash token then .ok else .error Gate.refusal
  | .ok .quit => .farewell
  | .ok _ => .error "authentication required"

end TokenSet

/-- The warning that a line of a client leaves behind that has shown no accepted token, not even by
this line. -/
def guestWarning (line : List Char) : Option String :=
  match Request.read line with
  | .error e => some ("rejected command: " ++ e.message)
  | .ok (.auth _) => some "authentication failed"
  | .ok .quit => none
  | .ok request => some (request.verb.name ++ " before AUTH refused")

namespace Service

/-- The service after a warning of a session, if there is one. -/
def warned (s : Service) (origin : Origin) (session : String) : Option String → Service
  | none => s
  | some message => s.logEvent origin .warn session message

/-- Standard sinks have no subscribers, so that logging does not reach beyond the backlog. -/
theorem logEvent_eq (s : Service) (origin : Origin) (level : Level) (session : Option String)
    (message : String) :
    s.logEvent origin level session message =
      if Pipeline.statementFloor ≤ level ∧ s.log.threshold ≤ level then
        { s with log := s.log.enqueue (.capture origin level session message) }
      else s := by
  have nobody : s.log.subscribers = [] := by
    cases subscribers : s.log.subscribers with
    | nil => rfl
    | cons entry rest => exact entry.2.elim
  have announced : ∀ r, s.log.announce standardOutlets r = s.log := by
    intro r
    have told : standardOutlets.notifyAll r s.log.pending (s.log.subscribers.map (·.2))
        s.log.outside = s.log.outside := by
      rw [nobody]
      rfl
    rw [Pipeline.announce, told]
  rw [logEvent, Pipeline.state, Pipeline.submit, Pipeline.accepts]
  by_cases stated : Pipeline.statementFloor ≤ level
  · by_cases accepted : s.log.threshold ≤ level
    · simp only [stated, accepted, decide_true, if_true, and_self, announced]
    · simp only [stated, accepted, decide_false, Bool.false_eq_true, if_true, if_false, and_false]
  · simp only [stated, if_false, false_and]

/-- Nothing has changed but, at most, which records wait to be written to the logs. The data file
and what the logs hold in memory are among what lies outside. -/
structure OnlyLogged (s s' : Service) : Prop where
  store : s'.store = s.store
  gate : s'.gate = s.gate
  shutdownRequested : s'.shutdownRequested = s.shutdownRequested
  threshold : s'.log.threshold = s.log.threshold
  outside : s'.log.outside = s.log.outside

theorem OnlyLogged.refl (s : Service) : OnlyLogged s s :=
  ⟨rfl, rfl, rfl, rfl, rfl⟩

theorem onlyLogged_logEvent (s : Service) (origin : Origin) (level : Level) (session : Option String)
    (message : String) : OnlyLogged s (s.logEvent origin level session message) := by
  rw [logEvent_eq]
  split
  · exact ⟨rfl, rfl, rfl, rfl, rfl⟩
  · exact OnlyLogged.refl s

theorem onlyLogged_warned (s : Service) (origin : Origin) (session : String)
    (warning : Option String) : OnlyLogged s (s.warned origin session warning) := by
  cases warning with
  | none => exact OnlyLogged.refl s
  | some message => exact s.onlyLogged_logEvent origin .warn session message

theorem gate_logEvent (s : Service) (origin : Origin) (level : Level) (session : Option String)
    (message : String) : (s.logEvent origin level session message).gate = s.gate :=
  (s.onlyLogged_logEvent origin level session message).gate

theorem gate_storeFailure (s : Service) (origin : Origin) (session : Session) (verb : Verb)
    (e : StoreError) : (s.storeFailure origin session verb e).1.gate = s.gate :=
  s.gate_logEvent origin .error session.name _

theorem gate_changePresent (s : Service) (origin : Origin) (session : Session) (verb : Verb)
    (key done : String)
    (operation : FileSystem → Store → FileSystem × Store × Except StoreError Bool) :
    (s.changePresent origin session verb key done operation).1.gate = s.gate := by
  rw [changePresent, change]
  rcases operation s.files s.store with ⟨files, store, e | changed⟩
  · exact gate_storeFailure _ origin session verb e
  · cases changed with
    | true => exact gate_logEvent _ origin .info session.name _
    | false => rfl

/-- No request changes the gate. -/
theorem gate_carryOut (s : Service) (origin : Origin) (session : Session) (request : Request) :
    (s.carryOut origin session request).1.gate = s.gate := by
  cases request with
  | auth token =>
    rw [carryOut, authenticate]
    split
    · exact gate_logEvent s origin .info session.name _
    · exact gate_logEvent s origin .warn session.name _
  | put key value =>
    rw [carryOut, put, change]
    rcases s.store.put s.files key value with ⟨files, store, e | ⟨⟩⟩
    · exact gate_storeFailure _ origin session .put e
    · exact gate_logEvent _ origin .info session.name _
  | get key =>
    rw [carryOut, get]
    cases s.store.get? key with
    | some value => exact gate_logEvent s origin .debug session.name _
    | none => exact gate_logEvent s origin .debug session.name _
  | delete key => exact gate_changePresent s origin session .delete key "DELETED" _
  | update key value => exact gate_changePresent s origin session .update key "UPDATED" _
  | level level =>
    cases level with
    | none => rfl
    | some level => exact gate_logEvent _ origin .info session.name _
  | logs count => rfl
  | sessionLogs name count => rfl
  | exportLog name => rfl
  | clear scope =>
    cases scope with
    | everything => exact gate_logEvent _ origin .info session.name _
    | session name => exact gate_logEvent _ origin .info session.name _
  | shutdown => exact gate_logEvent s origin .warn session.name "shutdown requested"
  | quit => rfl

theorem gate_handle (s : Service) (origin : Origin) (session : Session) (line : List Char) :
    (s.handle origin session line).1.gate = s.gate := by
  rw [handle]
  split
  next request parsed =>
    rw [execute]
    split
    · exact s.gate_carryOut origin session request
    · exact gate_logEvent s origin .warn session.name _
  next e refused => exact gate_logEvent s origin .warn session.name _

/-- The answer to a client that has shown no accepted token yet, what becomes of its session, and
what the line leaves behind, one case for each way to read the line. -/
theorem handle_guest {s : Service} {hash : String → Digest} {tokens : TokenSet}
    (gate : s.gate = .holders hash tokens) (origin : Origin) {session : Session} (guest : session.isAuthenticated = false)
    (line : List Char) :
    (s.handle origin session line).2.2 = tokens.guestAnswer hash line ∧
      (s.handle origin session line).2.1 =
        { session with isAuthenticated := tokens.admits hash line } ∧
      (tokens.admits hash line = false →
        (s.handle origin session line).1 = s.warned origin session.name (guestWarning line)) := by
  have unchanged : session = { session with isAuthenticated := false } := by
    rw [← guest]
  have free : ∀ request : Request, (session.isAuthenticated || request.isFree) = request.isFree := by
    intro request
    rw [guest, Bool.false_or]
  rw [handle, TokenSet.guestAnswer, TokenSet.admits, guestWarning]
  cases Request.read line with
  | error e => exact ⟨rfl, unchanged, fun _ => rfl⟩
  | ok request =>
    dsimp only
    rw [execute, free]
    cases request with
    | auth token =>
      have asked : s.gate.accepts token = tokens.accepts hash token := by
        rw [gate]
        rfl
      simp only [Request.isFree, if_true, carryOut, authenticate, asked]
      cases tokens.accepts hash token with
      | true => exact ⟨rfl, rfl, fun refused => Bool.noConfusion refused⟩
      | false => exact ⟨rfl, unchanged, fun _ => rfl⟩
    | quit => exact ⟨rfl, unchanged, fun _ => rfl⟩
    | _ => exact ⟨rfl, unchanged, fun _ => rfl⟩

/-- A client that is let in stays so, and its session keeps its name. -/
theorem session_of_authenticated (s : Service) (origin : Origin) {session : Session}
    (authenticated : session.isAuthenticated = true) (line : List Char) :
    (s.handle origin session line).2.1 = session := by
  rw [handle]
  cases Request.read line with
  | error e => rfl
  | ok request =>
    dsimp only
    rw [execute, authenticated, Bool.true_or, if_pos rfl]
    cases request with
    | auth token =>
      rw [carryOut, authenticate]
      split
      · rw [← authenticated]
      · rfl
    | level level => cases level <;> rfl
    | _ => rfl

/-- Only a line with an accepted token changes a session, and only to let the client in. -/
theorem session_handle {s : Service} {hash : String → Digest} {tokens : TokenSet}
    (gate : s.gate = .holders hash tokens) (origin : Origin) (session : Session) (line : List Char) :
    (s.handle origin session line).2.1 =
      { session with isAuthenticated := session.isAuthenticated || tokens.admits hash line } := by
  cases known : session.isAuthenticated with
  | false => exact (handle_guest gate origin known line).2.1
  | true =>
    rw [s.session_of_authenticated origin known, Bool.true_or, ← known]

end Service

/-- The service with the sessions of its clients, in the order in which they came. -/
structure Clientele where
  service : Service
  sessions : List Session

/-- What can happen: a client comes, a line of a client is answered, or the worker of the log takes
a step. -/
inductive Happening
  | arrival (name : String)
  | line (client : Nat) (origin : Origin) (text : List Char)
  | work

namespace Happening

/-- The line of a client, if that is what happens. -/
def lineOf? (client : Nat) : Happening → Option (List Char)
  | line other _ text => if other = client then some text else none
  | _ => none

/-- The lines of a client, in order. -/
def linesOf (client : Nat) (happenings : List Happening) : List (List Char) :=
  happenings.filterMap (lineOf? client)

theorem linesOf_append (client : Nat) (happenings more : List Happening) :
    linesOf client (happenings ++ more) = linesOf client happenings ++ linesOf client more :=
  List.filterMap_append

theorem linesOf_single (client : Nat) (happening : Happening) :
    linesOf client [happening] = (happening.lineOf? client).toList := by
  rw [linesOf, List.filterMap_cons]
  cases happening.lineOf? client <;> rfl

end Happening

namespace Clientele

open Happening

/-- What happens, with the answer and the number of the client to whom it is given. -/
def step (c : Clientele) : Happening → Clientele × Option (Nat × Response)
  | .arrival name => ({ c with sessions := c.sessions ++ [c.service.openSession name] }, none)
  | .work => ({ c with service.log := c.service.log.work standardOutlets }, none)
  | .line client origin text =>
    match c.sessions[client]? with
    | none => (c, none)
    | some session =>
      let (service, session, response) := c.service.handle origin session text
      (⟨service, c.sessions.set client session⟩, some (client, response))

/-- What happens, one after the other, with all answers in order. -/
def run (c : Clientele) : List Happening → Clientele × List (Nat × Response)
  | [] => (c, [])
  | happening :: rest =>
    let (c, answer) := c.step happening
    let (c, answers) := c.run rest
    (c, answer.toList ++ answers)

/-- The answers that a client gets. -/
def answersTo (client : Nat) (answers : List (Nat × Response)) : List Response :=
  answers.filterMap fun answer => if answer.1 = client then some answer.2 else none

theorem run_append (c : Clientele) (happenings more : List Happening) :
    c.run (happenings ++ more) =
      (((c.run happenings).1.run more).1,
        (c.run happenings).2 ++ ((c.run happenings).1.run more).2) := by
  induction happenings generalizing c with
  | nil => rfl
  | cons happening rest inductionHypothesis =>
    simp only [List.cons_append, run, inductionHypothesis, List.append_assoc]

theorem run_single (c : Clientele) (happening : Happening) :
    c.run [happening] = ((c.step happening).1, (c.step happening).2.toList) := by
  simp only [run, List.append_nil]

/-- The gate accepts the tokens, and a client is let in exactly if one of its lines shows one. -/
structure Guards (hash : String → Digest) (tokens : TokenSet) (client : Nat) (name : String)
    (lines : List (List Char)) (c : Clientele) : Prop where
  gate : c.service.gate = .holders hash tokens
  session : c.sessions[client]? = some ⟨name, lines.any (tokens.admits hash)⟩

variable {hash : String → Digest} {tokens : TokenSet} {client : Nat} {name : String}
  {lines : List (List Char)} {c : Clientele}

/-- Whatever happens, only the client's own lines count for it. -/
theorem Guards.step (guards : Guards hash tokens client name lines c) (happening : Happening) :
    Guards hash tokens client name (lines ++ (happening.lineOf? client).toList) (c.step happening).1 := by
  cases happening with
  | arrival newcomer =>
    refine ⟨guards.gate, ?_⟩
    have known := List.getElem?_eq_some_iff.1 guards.session
    obtain ⟨among, -⟩ := known
    simp only [Clientele.step, lineOf?, Option.toList_none, List.append_nil]
    rw [List.getElem?_append_left among, guards.session]
  | work =>
    refine ⟨guards.gate, ?_⟩
    simp only [Clientele.step, lineOf?, Option.toList_none, List.append_nil]
    exact guards.session
  | line other origin text =>
    by_cases own : other = client
    · subst own
      simp only [Clientele.step, guards.session, lineOf?, if_true, Option.toList_some]
      refine ⟨(Service.gate_handle _ origin _ text).trans guards.gate, ?_⟩
      obtain ⟨among, -⟩ := List.getElem?_eq_some_iff.1 guards.session
      rw [List.getElem?_set_self among, Service.session_handle guards.gate, List.any_append,
        List.any_cons, List.any_nil, Bool.or_false]
    · simp only [Clientele.step, lineOf?, if_neg own, Option.toList_none, List.append_nil]
      cases found : c.sessions[other]? with
      | none => exact guards
      | some session =>
        refine ⟨(Service.gate_handle _ origin _ text).trans guards.gate, ?_⟩
        rw [List.getElem?_set_ne own, guards.session]

theorem Guards.run (guards : Guards hash tokens client name lines c) (happenings : List Happening) :
    Guards hash tokens client name (lines ++ linesOf client happenings) (c.run happenings).1 := by
  induction happenings generalizing lines c with
  | nil =>
    rw [linesOf, List.filterMap_nil, List.append_nil]
    exact guards
  | cons happening rest inductionHypothesis =>
    have more := inductionHypothesis (guards.step happening)
    rw [← List.singleton_append, linesOf_append, linesOf_single, ← List.append_assoc]
    exact more

/-- A client that comes where a token is required is guarded from the start. -/
theorem guards_arrival (required : tokens.isRequired) (gate : c.service.gate = .holders hash tokens)
    (name : String) : Guards hash tokens c.sessions.length name [] (c.step (.arrival name)).1 := by
  refine ⟨gate, ?_⟩
  simp only [Clientele.step, List.getElem?_concat_length, Service.openSession, gate, Gate.isRequired,
    required, List.any_nil, Bool.not_true]

/-- An answer is given to the client whose line is answered. -/
theorem answersTo_step_of_other (c : Clientele) {happening : Happening}
    (other : happening.lineOf? client = none) :
    answersTo client (c.step happening).2.toList = [] := by
  cases happening with
  | arrival name => rfl
  | work => rfl
  | line sender origin text =>
    have foreign : sender ≠ client := by
      rintro rfl
      simp [lineOf?] at other
    rw [Clientele.step]
    cases c.sessions[sender]? with
    | none => rfl
    | some session => simp [answersTo, foreign]

/-- The answer to a client that none of its lines has let in. -/
theorem answersTo_step_of_guest (guards : Guards hash tokens client name lines c) (origin : Origin)
    (text : List Char) (guest : lines.any (tokens.admits hash) = false) :
    answersTo client (c.step (.line client origin text)).2.toList = [tokens.guestAnswer hash text] := by
  have unknown : (Session.mk name (lines.any (tokens.admits hash))).isAuthenticated = false := guest
  obtain ⟨answer, -, -⟩ := Service.handle_guest guards.gate origin unknown text
  simp [Clientele.step, guards.session, answersTo, answer]

/-- As long as at most the last of its lines shows an accepted token, each answer to a client is the
one for that line and the tokens, whatever else happens. The induction takes the happenings from
their end, so that what came before the last line of the client is at hand when it is answered. -/
theorem answers_of_guards (guards : Guards hash tokens client name [] c) (happenings : List Happening)
    (early : ∀ text ∈ (linesOf client happenings).dropLast, tokens.admits hash text = false) :
    answersTo client (c.run happenings).2 = (linesOf client happenings).map (tokens.guestAnswer hash) := by
  induction happenings using List.reverseRecOn with
  | nil => rfl
  | append_singleton happenings happening inductionHypothesis =>
    have split : ∀ answers more, answersTo client (answers ++ more) =
        answersTo client answers ++ answersTo client more := fun _ _ => List.filterMap_append
    rw [linesOf_append, linesOf_single] at early ⊢
    rw [run_append, run_single, split, List.map_append]
    cases own : happening.lineOf? client with
    | none =>
      rw [own, Option.toList_none, List.append_nil] at early
      rw [answersTo_step_of_other _ own, inductionHypothesis early, Option.toList_none, List.map_nil]
    | some text =>
      rw [own, Option.toList_some, List.dropLast_concat] at early
      have guest : ([] ++ linesOf client happenings).any (tokens.admits hash) = false := by
        simpa using early
      have line : ∃ origin, happening = .line client origin text := by
        cases happening with
        | arrival name => cases own
        | work => cases own
        | line sender origin said =>
          by_cases same : sender = client
          · simp only [lineOf?, if_pos same, Option.some.injEq] at own
            exact ⟨origin, by rw [same, own]⟩
          · simp [lineOf?, same] at own
      obtain ⟨origin, rfl⟩ := line
      rw [answersTo_step_of_guest (guards.run happenings) origin text guest,
        inductionHypothesis fun text member => early text (List.dropLast_subset _ member),
        Option.toList_some, List.map_singleton]

/-- A client that comes where a token is required is let in by the first of its lines that shows an
accepted one, by nothing else, and for good. Up to that line and including it, its answers are those
for its lines and the tokens: nothing of the store, the logs, the threshold or the other clients
shows in them. Before that line, what a line of the client leaves behind is at most one record that
waits to be written to the logs, a warning under the name of its session. -/
theorem guests_isolated (required : tokens.isRequired) (gate : c.service.gate = .holders hash tokens)
    (name : String) (happenings : List Happening) :
    let client := c.sessions.length
    let lines := linesOf client happenings
    let reached := (c.step (.arrival name)).1.run happenings
    reached.1.sessions[client]? = some ⟨name, lines.any (tokens.admits hash)⟩ ∧
      ((∀ text ∈ lines.dropLast, tokens.admits hash text = false) →
        answersTo client reached.2 = lines.map (tokens.guestAnswer hash)) ∧
      ∀ origin text, (∀ said ∈ lines ++ [text], tokens.admits hash said = false) →
        let after := (reached.1.step (.line client origin text)).1
        after.sessions = reached.1.sessions ∧
          Service.OnlyLogged reached.1.service after.service ∧
          after.service = reached.1.service.warned origin name (guestWarning text) := by
  intro client lines reached
  have arrived := guards_arrival required gate name
  have guards : Guards hash tokens client name lines reached.1 := arrived.run happenings
  refine ⟨guards.session, answers_of_guards arrived happenings, ?_⟩
  intro origin text refused
  have guest : lines.any (tokens.admits hash) = false := by
    simpa using fun said member => refused said (List.mem_append_left _ member)
  have closed : tokens.admits hash text = false :=
    refused text (List.mem_append_right _ List.mem_cons_self)
  have unknown : (Session.mk name (lines.any (tokens.admits hash))).isAuthenticated = false := guest
  obtain ⟨-, session, service⟩ := Service.handle_guest guards.gate origin unknown text
  have after : (reached.1.step (.line client origin text)).1 =
      ⟨reached.1.service.warned origin name (guestWarning text), reached.1.sessions⟩ := by
    have same : reached.1.sessions.set client ⟨name, lines.any (tokens.admits hash)⟩ =
        reached.1.sessions := by
      obtain ⟨among, there⟩ := List.getElem?_eq_some_iff.1 guards.session
      rw [← there, List.set_getElem_self]
    simp only [Clientele.step, guards.session, service closed, session, closed]
    rw [← guest, same]
  rw [after]
  exact ⟨rfl, Service.onlyLogged_warned _ origin name _, rfl⟩

/-- One client of a service with one token, whose first line is a request and whose second is none. -/
theorem guest_of_one_token :
    let tokens : TokenSet := ⟨[.replicate 32 0], by simp⟩
    let service : Service :=
      ⟨.create 4 (.ofHistory (.ofFiles .empty) (.empty 4 4) ()), .inMemory,
        .holders tokenDigest tokens, false⟩
    let c : Clientele := ⟨service, []⟩
    let origin : Origin := ⟨⟨0⟩, 1⟩
    let lines := ["GET a".toList, "".toList]
    tokens.isRequired ∧ service.gate = .holders tokenDigest tokens ∧
      answersTo 0 ((c.step (.arrival "conn-1")).1.run
        [.line 0 origin "GET a".toList, .work, .line 0 origin "".toList]).2 =
          lines.map (tokens.guestAnswer tokenDigest) := by
  intro tokens service c origin lines
  have required : tokens.isRequired = true := rfl
  have gate : c.service.gate = .holders tokenDigest tokens := rfl
  have isolated := guests_isolated required gate "conn-1"
    [.line 0 origin "GET a".toList, .work, .line 0 origin "".toList]
  refine ⟨required, gate, isolated.2.1 ?_⟩
  intro text member
  have first : text = "GET a".toList := List.mem_singleton.1 member
  rw [first]
  decide +kernel

end Clientele

end KeyValueService
