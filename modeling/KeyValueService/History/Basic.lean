import KeyValueService.History.Ring
import KeyValueService.Record.Rendering
import KeyValueService.Table

/-!
# Histories

A history keeps the latest records in memory: those of all sessions together, and those of each
session on its own. A session is known from its first record until it is cleared, even if the
history keeps no records of single sessions.
-/

namespace KeyValueService

/-- The latest records, of everything and by session. -/
structure History where
  everything : Ring Record
  sessionCapacity : Nat
  sessions : Table (Ring Record)

namespace History

/-- How many records are kept in all unless a number is given. -/
def standardCapacity : Nat := 4096

/-- How many records of a session are kept unless a number is given. -/
def standardSessionCapacity : Nat := 512

/-- How many bytes the slot of a record takes. -/
def recordSize : Nat := 80

/-- Whether that many records can be kept at all. -/
def hasRoom (capacity : Nat) : Bool :=
  Ring.hasRoom recordSize capacity

/-- A history without records. -/
def empty (capacity sessionCapacity : Nat) : History :=
  ⟨.empty capacity, sessionCapacity, .empty⟩

instance : Inhabited History := ⟨empty standardCapacity standardSessionCapacity⟩

/-- How many records are kept in all. -/
def capacity (h : History) : Nat :=
  h.everything.capacity

/-- The records of a session. -/
def ofSession (h : History) (session : String) : Ring Record :=
  (h.sessions.find? session).getD (.empty h.sessionCapacity)

/-- Adds a record, also to those of its session if it has one. -/
def add (h : History) (r : Record) : History :=
  { h with
    everything := h.everything.push r
    sessions :=
      match r.session with
      | none => h.sessions
      | some session => h.sessions.insert session ((h.ofSession session).push r) }

/-- The last `n` records, oldest first. -/
def latest (h : History) (n : Nat) : List Record :=
  h.everything.latest n

/-- The last `n` records of a session, oldest first. -/
def latestOf (h : History) (session : String) (n : Nat) : List Record :=
  (h.ofSession session).latest n

/-- All that is kept of a session as a text, a line for each record. -/
def exportOf (h : History) (session : String) : String :=
  String.join ((h.ofSession session).toList.map fun r => r.exported ++ "\n")

/-- Forgets a session, and tells whether it was known. What is kept of everything stays. -/
def clearSession (h : History) (session : String) : History × Bool :=
  ({ h with sessions := h.sessions.erase session }, h.sessions.contains session)

/-- Forgets all records and all sessions. -/
def clear (h : History) : History :=
  { h with everything := h.everything.clear, sessions := .empty }

/-- The sessions known, in ascending order. -/
def sessionNames (h : History) : List String :=
  h.sessions.keys

end History

end KeyValueService
