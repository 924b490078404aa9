import KeyValueService.Service.Connection

/-!
# The server

The service together with the connections of its clients. Connections are numbered from one, in the
order in which they are accepted, and their sessions are named after the numbers. When a shutdown is
wanted, no connection is accepted any more, and the server stops once every open one has noticed.
-/

namespace KeyValueService

/-- The service and all connections accepted so far, in the order of their numbers. -/
structure Server where
  service : Service
  connections : List Connection

namespace Server

/-- Starts to listen on an address. -/
def listen (origin : Origin) (s : Service) (address : String) : Server :=
  ⟨s.logEvent origin .info none ("keyforge listening on " ++ address), []⟩

/-- The name of the session of a connection. -/
def sessionName (number : Nat) : String :=
  "conn-" ++ toString number

/-- How many connections are open. -/
def openCount (server : Server) : Nat :=
  server.connections.countP (·.isOpen)

/-- Accepts a connection from a client at an address. -/
def accept (origin : Origin) (server : Server) (peer : String) : Server :=
  let name := sessionName (server.connections.length + 1)
  let s := server.service.logEvent origin .info name ("accepted connection from " ++ peer)
  ⟨s, server.connections ++ [.accepted s name]⟩

/-- Notes that a connection that was open is open no more. -/
def noteClosing (origin : Origin) (s : Service) (before after : Connection) : Service :=
  if before.isOpen && !after.isOpen then
    s.logEvent origin .info after.session.name "connection closed"
  else s

/-- Lets something arrive at the connection with an index, which is one below its number. -/
def arrive (origin : Origin) (server : Server) (index : Nat) (arrival : Arrival) : Server :=
  match server.connections[index]? with
  | none => server
  | some before =>
    let (s, after) := before.step origin server.service arrival
    ⟨noteClosing origin s before after, server.connections.set index after⟩

/-- Asks for a shutdown. -/
def requestShutdown (server : Server) : Server :=
  { server with service.shutdownRequested := true }

/-- Stops listening, lets every open connection notice the shutdown, and stops. -/
def stop (origin : Origin) (server : Server) : Server :=
  let server := server.requestShutdown
  let waiting := "shutdown: waiting for " ++ toString server.openCount ++ " open connection(s)"
  let server := { server with service := server.service.logEvent origin .info none waiting }
  let server := (List.range server.connections.length).foldl
    (fun server index => server.arrive origin index .pause) server
  { server with service := server.service.logEvent origin .info none "server stopped" }

end Server

end KeyValueService
