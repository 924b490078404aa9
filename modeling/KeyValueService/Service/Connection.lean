import KeyValueService.Bytes.Segments
import KeyValueService.Bytes.Utf8
import KeyValueService.Service.Basic

/-!
# Connections

A connection receives bytes in pieces of any size, with pauses between them, until the client has
sent everything. Whenever a line is complete it is answered; an incomplete line waits for more bytes,
and is answered as it is when no more can come. Nothing that comes after an answer that closes the
connection is looked at. At a pause the connection is closed if the line that waits has grown too
long, or if the service shuts down.
-/

namespace KeyValueService

open Bytes

/-- What can happen to a connection from outside. -/
inductive Arrival
  | bytes (piece : List UInt8)
  | pause
  | finish
  | failure (cause : DiskError)
  deriving DecidableEq, Repr

/-- A connection: its session, the bytes of the line that is not complete yet, whether it is open,
and what it has answered so far. -/
structure Connection where
  session : Session
  unfinished : List UInt8
  isOpen : Bool
  sent : List Response
  deriving Repr, Inhabited

namespace Connection

/-- How many bytes a line that waits may have. -/
def maxUnfinished : Nat := 64 * 1024

/-- The answer to a line that has grown too long. -/
def tooLong : Response :=
  .error "line too long"

/-- A connection that has just been accepted, with a session of the given name. -/
def accepted (s : Service) (name : String) : Connection where
  session := s.openSession name
  unfinished := []
  isOpen := !s.shutdownRequested
  sent := []

/-- The connection when it is closed. -/
def closed (c : Connection) : Connection :=
  { c with isOpen := false }

/-- Answers a line, and closes the connection if the answer or the service asks for that. -/
def answer (origin : Origin) (s : Service) (c : Connection) (line : List UInt8) :
    Service × Connection :=
  let (s, session, response) := s.handle origin c.session (decodeLossy line)
  (s,
    { session
      unfinished := []
      isOpen := !(response.closes || s.shutdownRequested)
      sent := c.sent ++ [response] })

/-- Receives one segment: it completes the line that waits, or makes it longer. -/
def receiveSegment (origin : Origin) (state : Service × Connection) (segment : List UInt8) :
    Service × Connection :=
  let (s, c) := state
  if !c.isOpen then (s, c)
  else if isTerminated segment then answer origin s c (c.unfinished ++ segment)
  else (s, { c with unfinished := c.unfinished ++ segment })

/-- What the connection does at a pause. -/
def rest (s : Service) (c : Connection) : Connection :=
  if maxUnfinished < c.unfinished.length then
    { c with isOpen := false, sent := c.sent ++ [tooLong] }
  else if s.shutdownRequested then c.closed
  else c

/-- What the connection does when no more bytes can come. -/
def finish (origin : Origin) (s : Service) (c : Connection) : Service × Connection :=
  if c.unfinished = [] then (s, c.closed)
  else
    let (s, c) := answer origin s c c.unfinished
    (s, c.closed)

/-- Follows one arrival. A closed connection ignores it. -/
def step (origin : Origin) (s : Service) (c : Connection) (arrival : Arrival) :
    Service × Connection :=
  if !c.isOpen then (s, c)
  else
    match arrival with
    | .bytes piece => (segments piece).foldl (receiveSegment origin) (s, c)
    | .pause => (s, c.rest s)
    | .finish => c.finish origin s
    | .failure cause =>
      (s.logEvent origin .warn c.session.name ("connection error: " ++ cause.message), c.closed)

/-- Follows arrivals, one after the other. -/
def run (origin : Origin) (s : Service) (c : Connection) (arrivals : List Arrival) :
    Service × Connection :=
  arrivals.foldl (fun (s, c) arrival => step origin s c arrival) (s, c)

/-- The text of all answers. -/
def output (c : Connection) : String :=
  String.join (c.sent.map Response.text)

end Connection

end KeyValueService
