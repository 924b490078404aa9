import KeyValueService.Bytes.Hex
import KeyValueService.Bytes.Sha256
import KeyValueService.Disk.FileSystem
import KeyValueService.Text.Blank
import KeyValueService.Text.Lines
import KeyValueService.Text.Quoted

/-!
# Access tokens

A client proves its right of access by a token. The service keeps only the SHA-256 digests of the
tokens that it accepts. Digests come from tokens given in plain and from files that list them in
hexadecimal, one a line, with comment lines after a `#`.
-/

namespace KeyValueService

open Bytes Text

/-- The digest of a token. -/
def tokenDigest (token : String) : Digest :=
  sha256 token.toUTF8.toList

/-- A digest as a token file lists it. -/
def Bytes.Digest.hex (digest : Digest) : String :=
  String.ofList (toHex digest.toList)

/-- Reads a digest of exactly 64 hexadecimal digits of either case. A text of another number of bytes is
refused before it is read. -/
def Bytes.Digest.ofHex? (s : List Char) : Option Digest :=
  if (String.ofList s).utf8ByteSize = 64 then
    match Bytes.ofHex? s with
    | none => none
    | some bytes => if h : bytes.toArray.size = 32 then some ⟨bytes.toArray, h⟩ else none
  else none

/-- A token made of random bytes. -/
def tokenOfBytes (bytes : Vector UInt8 16) : String :=
  String.ofList (toHex bytes.toList)

/-- A line of a token file that was skipped because it is no digest. -/
structure MalformedDigest where
  number : Nat
  path : Path
  deriving DecidableEq, Repr

/-- The wording of the report. -/
def MalformedDigest.message (m : MalformedDigest) : String :=
  "[TokenAuth] ignoring malformed digest on line " ++ toString m.number ++ " in " ++
    quoted m.path.text

/-- The digests of the accepted tokens, each once. -/
structure TokenSet where
  digests : List Digest
  distinct : digests.Nodup

namespace TokenSet

/-- No token is accepted. -/
def empty : TokenSet := ⟨[], .nil⟩

/-- Whether a digest is among those accepted. -/
def contains (tokens : TokenSet) (digest : Digest) : Bool :=
  digest ∈ tokens.digests

/-- Adds a digest. -/
def insert (tokens : TokenSet) (digest : Digest) : TokenSet :=
  if h : digest ∈ tokens.digests then tokens
  else ⟨digest :: tokens.digests, List.nodup_cons.2 ⟨h, tokens.distinct⟩⟩

/-- Adds the digest of a token given in plain; an empty token is left out. -/
def insertToken (hash : String → Digest) (tokens : TokenSet) (token : String) : TokenSet :=
  if token = "" then tokens else tokens.insert (hash token)

/-- The set of tokens given in plain. -/
def ofTokens (hash : String → Digest) (tokens : List String) : TokenSet :=
  tokens.foldl (insertToken hash) empty

/-- Adds the digests of numbered lines and lists the numbers of those that are no digests. -/
def insertLines (tokens : TokenSet) : List (Nat × List Char) → TokenSet × List Nat
  | [] => (tokens, [])
  | (number, line) :: rest =>
    match trimChars line with
    | [] => tokens.insertLines rest
    | '#' :: _ => tokens.insertLines rest
    | digits =>
      match Digest.ofHex? digits with
      | some digest => (tokens.insert digest).insertLines rest
      | none =>
        let (tokens, malformed) := tokens.insertLines rest
        (tokens, number :: malformed)

/-- Adds the digests listed in a file, with reports of the lines skipped. -/
def load (fs : FileSystem) (tokens : TokenSet) (path : Path) :
    Except DiskError (TokenSet × List MalformedDigest) :=
  match fs.readText path with
  | .error e => .error e
  | .ok text =>
    let (tokens, malformed) := tokens.insertLines (numberedLines text)
    .ok (tokens, malformed.map (⟨·, path⟩))

/-- The number of digests. -/
def size (tokens : TokenSet) : Nat :=
  tokens.digests.length

/-- Whether clients need a token at all: as soon as one is accepted. -/
def isRequired (tokens : TokenSet) : Bool :=
  !tokens.digests.isEmpty

/-- Whether a token is accepted. -/
def accepts (hash : String → Digest) (tokens : TokenSet) (token : String) : Bool :=
  tokens.contains (hash token)

end TokenSet

/-- Who may use the service: everyone, or the holders of a token, known by its digest under `hash`. -/
inductive Gate
  | everyone
  | holders (hash : String → Digest) (tokens : TokenSet)

namespace Gate

/-- The answer to a token that is not accepted. -/
def refusal : String := "invalid token"

/-- Whether a client has to show a token first. -/
def isRequired : Gate → Bool
  | everyone => false
  | holders _ tokens => tokens.isRequired

/-- Whether a token is accepted; where none is needed, any is. -/
def accepts : Gate → String → Bool
  | everyone, _ => true
  | holders hash tokens, token => tokens.accepts hash token

/-- The gate for a set of tokens; without tokens it is open to everyone. -/
def ofTokens (hash : String → Digest) (tokens : TokenSet) : Gate :=
  if tokens.isRequired then holders hash tokens else everyone

end Gate

end KeyValueService
