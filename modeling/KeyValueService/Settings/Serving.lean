import KeyValueService.Access.Tokens
import KeyValueService.Settings.Basic
import KeyValueService.Store.Basic

/-!
# Serving options

What the settings say about the service itself, in their section `Server`: the address to listen on,
the file that keeps the store, and the tokens that clients have to show.
-/

namespace KeyValueService

open Bytes Text

/-- How the service is set up. Without a data file the store is kept in memory only. -/
structure ServingOptions where
  address : String
  dataFile : Option Path
  tokensFile : Option Path
  tokens : List String
  deriving DecidableEq, Repr

namespace ServingOptions

/-- The options where the settings say nothing. -/
def standard : ServingOptions where
  address := "127.0.0.1:4545"
  dataFile := some ⟨"keyforge.db"⟩
  tokensFile := none
  tokens := []

/-- Whether options say the same as the standard ones; the path of the data file may be written
differently. -/
def isStandard (o : ServingOptions) : Bool :=
  o.address == standard.address && dataFile && o.tokensFile.isNone && o.tokens.isEmpty
where
  /-- Whether the data file is the standard one. -/
  dataFile : Bool :=
    match o.dataFile, standard.dataFile with
    | some path, some usual => path.agrees usual
    | _, _ => false

/-- The section that the options are read from. -/
def group : String := "Server"

/-- The data file: an empty value means none. -/
def readDataFile (s : Settings) : Option Path :=
  match s.get? group "data_file" with
  | some value => if value = "" then none else some ⟨value⟩
  | none => standard.dataFile

/-- The tokens of a list with commas between them; blanks around a token do not belong to it. -/
def splitTokens (value : String) : List String :=
  (((pieces ',' value.toList).map trimChars).filter (· ≠ [])).map String.ofList

/-- Reads the options, which are never refused. -/
def ofSettings (s : Settings) : ServingOptions where
  address := s.getFilledD group "bind" standard.address
  dataFile := readDataFile s
  tokensFile := (s.getFilled? group "tokens_file").map Path.mk
  tokens := ((s.get? group "tokens").map splitTokens).getD []

/-- The gate that the options ask for, with reports of the lines skipped in the token file. -/
def gate (hash : String → Digest) (fs : FileSystem) (o : ServingOptions) :
    Except DiskError (Gate × List MalformedDigest) :=
  let tokens := TokenSet.ofTokens hash o.tokens
  match o.tokensFile with
  | none => .ok (.ofTokens hash tokens, [])
  | some path =>
    match tokens.load fs path with
    | .error e => .error e
    | .ok (tokens, malformed) => .ok (.ofTokens hash tokens, malformed)

end ServingOptions

end KeyValueService
