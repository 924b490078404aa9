import KeyValueService.Access.Tokens
import KeyValueService.Logger.Basic
import KeyValueService.Request.Reader
import KeyValueService.Service.Response
import KeyValueService.Store.Basic

/-!
# The service

What all connections share: the store, the gate that tokens open, the logger, whose host has the file
system on which the store is kept, and the wish to shut down. `Service.handle` answers one line of a
client. Before a client has shown an accepted token, where one is required, it is refused everything
but showing one and leaving. All that is done is logged under the name of the client's session.
-/

namespace KeyValueService

/-- A client: the name of its session, and whether it may use the service. -/
structure Session where
  name : String
  isAuthenticated : Bool
  deriving DecidableEq, Repr, Inhabited

/-- A logger whose sinks are standard ones. -/
abbrev ServiceLog := Logger Empty Empty Unit

/-- The standard sinks and nothing else. -/
def standardOutlets : Surroundings (Outlet Empty) Empty (Outlets Unit) :=
  Surroundings.nothing.withOutlets

/-- What all connections share. -/
structure Service where
  log : ServiceLog
  store : Store
  gate : Gate
  shutdownRequested : Bool

namespace Service

/-- The file system that the store is kept on. -/
def files (s : Service) : FileSystem :=
  s.log.outside.host.files

/-- Changes the store and the file system that it is kept on. -/
def change {α : Type} (s : Service)
    (operation : FileSystem → Store → FileSystem × Store × Except StoreError α) :
    Service × Except StoreError α :=
  let (files, store, result) := operation s.files s.store
  ({ s with store, log.outside.host.files := files }, result)

/-- Logs an event of a session, or of none. -/
def logEvent (s : Service) (origin : Origin) (level : Level) (session : Option String)
    (message : String) : Service :=
  { s with log := s.log.state standardOutlets origin level session message }

/-- A new session, which is authenticated from the start if no token is required. -/
def openSession (s : Service) (name : String) : Session :=
  ⟨name, !s.gate.isRequired⟩

/-- The answer to a request that the store cannot carry out. -/
def storeFailure (s : Service) (origin : Origin) (session : Session) (verb : Verb)
    (e : StoreError) : Service × Response :=
  (s.logEvent origin .error session.name (verb.name ++ " failed: " ++ e.message),
    .error e.message)

/-- The answer to an attempt to show a token. -/
def authenticate (s : Service) (origin : Origin) (session : Session) (token : String) :
    Service × Session × Response :=
  if s.gate.accepts token then
    (s.logEvent origin .info session.name "authenticated",
      { session with isAuthenticated := true }, .ok)
  else
    (s.logEvent origin .warn session.name "authentication failed", session,
      .error Gate.refusal)

/-- Gives a key a value. -/
def put (s : Service) (origin : Origin) (session : Session) (key value : String) :
    Service × Response :=
  match s.change fun files store => store.put files key value with
  | (s, .ok ()) => (s.logEvent origin .info session.name (Verb.put.name ++ " " ++ key), .ok)
  | (s, .error e) => s.storeFailure origin session .put e

/-- Answers with the value of a key. -/
def get (s : Service) (origin : Origin) (session : Session) (key : String) :
    Service × Response :=
  let mention := Verb.get.name ++ " " ++ key
  match s.store.get? key with
  | some value => (s.logEvent origin .debug session.name (mention ++ " hit"), .line value)
  | none => (s.logEvent origin .debug session.name (mention ++ " miss"), .notFound)

/-- Answers for a change of a key that must have a value. -/
def changePresent (s : Service) (origin : Origin) (session : Session) (verb : Verb) (key : String)
    (done : String)
    (operation : FileSystem → Store → FileSystem × Store × Except StoreError Bool) :
    Service × Response :=
  match s.change operation with
  | (s, .ok true) =>
    (s.logEvent origin .info session.name (verb.name ++ " " ++ key), .line done)
  | (s, .ok false) => (s, .notFound)
  | (s, .error e) => s.storeFailure origin session verb e

/-- Takes the value of a key away. -/
def delete (s : Service) (origin : Origin) (session : Session) (key : String) :
    Service × Response :=
  s.changePresent origin session .delete key "DELETED" fun files store => store.remove files key

/-- Gives a key that has a value another one. -/
def update (s : Service) (origin : Origin) (session : Session) (key value : String) :
    Service × Response :=
  s.changePresent origin session .update key "UPDATED" fun files store =>
    store.update files key value

/-- Changes the threshold of the logs. -/
def setThreshold (s : Service) (origin : Origin) (session : Session) (level : Level) :
    Service × Response :=
  let s := { s with log := s.log.setThreshold level }
  (s.logEvent origin .info session.name ("threshold set to " ++ level.name), .ok)

/-- Clears logs. -/
def clear (s : Service) (origin : Origin) (session : Session) : Scope → Service × Response
  | .everything =>
    let s := { s with log := s.log.clear standardOutlets }
    (s.logEvent origin .info session.name "cleared all in-memory logs", .ok)
  | .session name =>
    let s := { s with log := (s.log.clearSession standardOutlets name).1 }
    (s.logEvent origin .info session.name ("cleared session " ++ name), .ok)

/-- Asks for a shutdown and says farewell. -/
def shutdown (s : Service) (origin : Origin) (session : Session) : Service × Response :=
  let s := s.logEvent origin .warn session.name "shutdown requested"
  ({ s with shutdownRequested := true }, .farewell)

/-- Carries out a request of a client that may use the service. -/
def carryOut (s : Service) (origin : Origin) (session : Session) :
    Request → Service × Session × Response
  | .auth token => s.authenticate origin session token
  | .put key value => keep (s.put origin session key value)
  | .get key => keep (s.get origin session key)
  | .delete key => keep (s.delete origin session key)
  | .update key value => keep (s.update origin session key value)
  | .level none => keep (s, .line s.log.threshold.name)
  | .level (some level) => keep (s.setThreshold origin session level)
  | .logs count => keep (s, .block ((s.log.latest standardOutlets count).map Record.plain))
  | .sessionLogs name count =>
    keep (s, .block ((s.log.latestOf standardOutlets name count).map Record.plain))
  | .exportLog name =>
    let text := s.log.exportOf standardOutlets name
    keep (s, .block ((Text.lines text.toList).map String.ofList))
  | .clear scope => keep (s.clear origin session scope)
  | .shutdown => keep (s.shutdown origin session)
  | .quit => keep (s, .farewell)
where
  /-- The session stays as it is. -/
  keep : Service × Response → Service × Session × Response
    | (s, response) => (s, session, response)

/-- Carries out a request, unless the client has to show a token first. -/
def execute (s : Service) (origin : Origin) (session : Session) (request : Request) :
    Service × Session × Response :=
  if session.isAuthenticated || request.isFree then s.carryOut origin session request
  else
    (s.logEvent origin .warn session.name (request.verb.name ++ " before AUTH refused"), session,
      .error "authentication required")

/-- Answers a line of a client. -/
def handle (s : Service) (origin : Origin) (session : Session) (line : List Char) :
    Service × Session × Response :=
  match Request.read line with
  | .ok request => s.execute origin session request
  | .error e =>
    (s.logEvent origin .warn session.name ("rejected command: " ++ e.message), session,
      .error e.message)

end Service

end KeyValueService
