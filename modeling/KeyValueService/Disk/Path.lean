import KeyValueService.Text.Pieces

/-!
# Paths

A path is a text in which slashes separate names. The operations here work on the text alone: which
directory it lies in, and the same path with another extension. Slashes at the end, and names that
consist of a single dot, do not count, except for a dot at the very beginning.
-/

namespace KeyValueService

open Text

/-- A path as it is written. -/
structure Path where
  text : String
  deriving DecidableEq, Repr, Inhabited

namespace Path

/-- Drops slashes and single dots after a slash from the end of a text that is given backwards. -/
def dropTrail : List Char → List Char
  | '/' :: rest => dropTrail rest
  | '.' :: '/' :: rest => dropTrail rest
  | backwards => backwards

/-- Everything up to the last name, and that name; both without the slashes between them. -/
def splitLast (s : List Char) : List Char × List Char :=
  let backwards := dropTrail s.reverse
  let name := backwards.takeWhile (· ≠ '/')
  ((dropTrail (backwards.drop name.length)).reverse, name.reverse)

/-- The directory that a path lies in, the empty path for a single name. The top directory and the
empty path lie in none. -/
def parent? (p : Path) : Option Path :=
  match p.text.toList with
  | [] => none
  | '/' :: rest =>
    match splitLast rest with
    | (_, []) => none
    | (above, _) => some ⟨String.ofList ('/' :: above)⟩
  | s => some ⟨String.ofList (splitLast s).1⟩

/-- The given number of paths at most, each the directory of the one before it. -/
def ancestorsFrom : Nat → Path → List Path
  | 0, _ => []
  | fuel + 1, p => p :: (p.parent?.map (ancestorsFrom fuel)).getD []

/-- A path, its directory, the directory of that, and so on. -/
def ancestors (p : Path) : List Path :=
  ancestorsFrom (p.text.length + 1) p

/-- A name without its extension, and the extension: what follows the last dot, unless nothing comes
before that dot. -/
def splitExtension (name : List Char) : List Char × List Char :=
  match cutLast? (· == '.') name with
  | some (c :: before, after) => (c :: before, after)
  | _ => (name, [])

/-- The path with the extension of its last name replaced. First as many characters leave the end of
the path as the extension has. What is then left stays if it ends in no name, or in the name of the
directory above; otherwise the new extension takes the place of what its last name has left of one. -/
def withExtension (p : Path) (extension : String) : Path :=
  let s := p.text.toList
  let bare := s.take (s.length - (splitExtension (splitLast s).2).2.length)
  let backwards := dropTrail bare.reverse
  let name := (backwards.takeWhile (· ≠ '/')).reverse
  if name = [] ∨ name = ['.'] ∨ name = ['.', '.'] then ⟨String.ofList bare⟩
  else
    let above := (backwards.drop name.length).reverse
    ⟨String.ofList (above ++ (splitExtension name).1) ++ "." ++ extension⟩

/-- The names that a path consists of. A path from the top directory begins with an empty name. -/
def names (p : Path) : List (List Char) :=
  match pieces '/' p.text.toList with
  | [] => []
  | first :: rest => first :: rest.filter fun name => name ≠ [] ∧ name ≠ ['.']

/-- Whether two paths consist of the same names. -/
def agrees (p q : Path) : Bool :=
  p.names == q.names && (p.text == "") == (q.text == "")

end Path

end KeyValueService
