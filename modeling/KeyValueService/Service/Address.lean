import KeyValueService.Text.Number
import KeyValueService.Text.Pieces

/-!
# Addresses

The address that a server listens on is a host and a port with a colon between them; the last colon
counts, as a host may have some of its own.
-/

namespace KeyValueService

open Text

/-- A host and a port. -/
structure Address where
  host : String
  port : Nat
  deriving DecidableEq, Repr

/-- Why a text is no address. -/
inductive AddressError
  | noPort
  | malformedPort
  deriving DecidableEq, Repr

/-- The wording of a fault. -/
def AddressError.message : AddressError → String
  | .noPort => "invalid socket address"
  | .malformedPort => "invalid port value"

/-- Reads an address. -/
def Address.read (text : String) : Except AddressError Address :=
  match cutLast? (· == ':') text.toList with
  | none => .error .noPort
  | some (host, port) =>
    match readNat maxPort port with
    | .ok port => .ok ⟨String.ofList host, port⟩
    | .error _ => .error .malformedPort

end KeyValueService
