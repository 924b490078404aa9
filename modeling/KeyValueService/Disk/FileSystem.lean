import KeyValueService.Disk.Error
import KeyValueService.Disk.Path

/-!
# File systems

A file system as a value: which directories and files there are, and what the files hold. Every
operation answers with a new file system or with the reason why the old one refuses. A file has a
number that it keeps under every name, and a handle refers to that number, so that writing through a
handle reaches the file wherever it has been moved, and nothing once it has been removed.
-/

namespace KeyValueService

open Text

/-- Where an entry is: its own name first, then the names of the directories around it, up to the
top directory, whose location is empty. -/
abbrev Location := List String

/-- What there is at a location. -/
inductive Entry
  | directory
  | file (number : Nat) (content : ByteArray)
  deriving Inhabited

/-- Directories and files by location. A full one has no room for another byte. -/
structure FileSystem where
  entries : List (Location × Entry)
  workingDirectory : Location
  nextNumber : Nat
  full : Bool

/-- An open file. Writing goes to the offset, which moves along, or to the end if there is none. -/
structure Handle where
  number : Nat
  offset : Option Nat
  deriving DecidableEq, Repr

/-- What a path leads to: a location with an entry or one free for an entry. -/
structure Target where
  location : Location
  entry : Option Entry
  /-- Whether the path ends in a slash and so can only mean a directory. -/
  slash : Bool
  /-- Whether the path ends in a name; one that ends in dots, or has no name, goes through a
  directory and not to one of its entries. -/
  isNamed : Bool

namespace FileSystem

/-- A file system with an empty working directory at its top. -/
def empty : FileSystem where
  entries := []
  workingDirectory := []
  nextNumber := 0
  full := false

instance : Inhabited FileSystem := ⟨empty⟩

/-- The entry of the first pair with a location. -/
def lookup? (location : Location) : List (Location × Entry) → Option Entry
  | [] => none
  | (other, entry) :: rest => if location = other then some entry else lookup? location rest

/-- The entry at a location. The top directory is always there. -/
def entryAt? (fs : FileSystem) : Location → Option Entry
  | [] => some .directory
  | location => lookup? location fs.entries

/-- The file system with an entry put at a location, in place of the one that may be there. -/
def set (fs : FileSystem) (location : Location) (entry : Entry) : FileSystem :=
  { fs with entries := (location, entry) :: fs.entries.filter fun (other, _) => other ≠ location }

/-- The file system without the entry at a location. -/
def unset (fs : FileSystem) (location : Location) : FileSystem :=
  { fs with entries := fs.entries.filter fun (other, _) => other ≠ location }

/-- The longest name that a directory holds, in bytes. -/
def maxNameSize : Nat := 255

/-- The longest path that can be followed, in bytes. -/
def maxPathSize : Nat := 4095

/-- Follows names one after the other, each from a directory. -/
def walk (fs : FileSystem) : Location → List String → Except DiskError Location
  | location, [] => .ok location
  | location, name :: rest =>
    match fs.entryAt? location with
    | none => .error .notFound
    | some (.file _ _) => .error .notDirectory
    | some .directory =>
      if name = "." then fs.walk location rest
      else if name = ".." then fs.walk location.tail rest
      else if maxNameSize < name.utf8ByteSize then .error .nameTooLong
      else fs.walk (name :: location) rest

/-- Whether a part of a path is the name of an entry, and not the dots of a directory. -/
def isName (part : String) : Bool :=
  part ≠ "." && part ≠ ".."

/-- What a path leads to. -/
def resolve (fs : FileSystem) (path : Path) : Except DiskError Target :=
  let s := path.text.toList
  if s = [] then .error .notFound
  else if '\x00' ∈ s then .error .nulInName
  else if maxPathSize < path.text.utf8ByteSize then .error .nameTooLong
  else
    let start := if s.head? = some '/' then [] else fs.workingDirectory
    let names := ((pieces '/' s).filter (· ≠ [])).map String.ofList
    match fs.walk start names with
    | .error e => .error e
    | .ok location =>
      .ok { location
            entry := fs.entryAt? location
            slash := s.getLast? == some '/'
            isNamed := (names.getLast?.map isName).getD false }

/-- The entry that a path leads to. With a slash at its end it does not lead to a file. -/
def find (fs : FileSystem) (path : Path) : Except DiskError Entry :=
  match fs.resolve path with
  | .error e => .error e
  | .ok ⟨_, none, _, _⟩ => .error .notFound
  | .ok ⟨_, some (.file _ _), true, _⟩ => .error .notDirectory
  | .ok ⟨_, some entry, _, _⟩ => .ok entry

/-- Whether a path leads to an entry. -/
def pathExists (fs : FileSystem) (path : Path) : Bool :=
  (fs.find path).isOk

/-- Whether a path leads to a directory. -/
def isDirectory (fs : FileSystem) (path : Path) : Bool :=
  match fs.find path with
  | .ok .directory => true
  | _ => false

/-- The bytes of a file. -/
def readBytes (fs : FileSystem) (path : Path) : Except DiskError ByteArray :=
  match fs.find path with
  | .error e => .error e
  | .ok .directory => .error .isDirectory
  | .ok (.file _ content) => .ok content

/-- The text of a file, which has to be UTF-8. -/
def readText (fs : FileSystem) (path : Path) : Except DiskError String :=
  match fs.readBytes path with
  | .error e => .error e
  | .ok content =>
    match String.fromUTF8? content with
    | some text => .ok text
    | none => .error .notUtf8

/-- Makes a directory in one that is there. -/
def makeDirectory (fs : FileSystem) (path : Path) : Except DiskError FileSystem :=
  match fs.resolve path with
  | .error e => .error e
  | .ok ⟨_, some _, _, _⟩ => .error .alreadyExists
  | .ok ⟨location, none, _, _⟩ => .ok (fs.set location .directory)

/-- Makes the first of the paths a directory, each path lying in the next, and makes those it lies
in first where they are missing. What was made stays when a later step fails. -/
def makeChain (fs : FileSystem) : List Path → FileSystem × Except DiskError Unit
  | [] => (fs, .ok ())
  | path :: above =>
    if path.text = "" then (fs, .ok ())
    else
      match fs.makeDirectory path with
      | .ok made => (made, .ok ())
      | .error .notFound =>
        match fs.makeChain above with
        | (prepared, .error e) => (prepared, .error e)
        | (prepared, .ok ()) =>
          match prepared.makeDirectory path with
          | .ok made => (made, .ok ())
          | .error e => (prepared, if prepared.isDirectory path then .ok () else .error e)
      | .error e => (fs, if fs.isDirectory path then .ok () else .error e)

/-- Makes sure that a path leads to a directory. -/
def makeDirectories (fs : FileSystem) (path : Path) : FileSystem × Except DiskError Unit :=
  fs.makeChain path.ancestors

/-- Makes sure that the directory of a path is there; a single name lies in the working directory. -/
def makeParents (fs : FileSystem) (path : Path) : FileSystem × Except DiskError Unit :=
  match path.parent? with
  | none => (fs, .ok ())
  | some parent => if parent.text = "" then (fs, .ok ()) else fs.makeDirectories parent

/-- Makes an empty file at a free location. -/
def addFile (fs : FileSystem) (location : Location) : FileSystem :=
  { fs.set location (.file fs.nextNumber ByteArray.empty) with nextNumber := fs.nextNumber + 1 }

/-- Opens a file for appending and tells its size; a missing one is made first. A path with a slash
at its end is refused as that of a directory. -/
def openToAppend (fs : FileSystem) (path : Path) : Except DiskError (FileSystem × Handle × Nat) :=
  match fs.resolve path with
  | .error e => .error e
  | .ok ⟨_, some .directory, _, _⟩ => .error .isDirectory
  | .ok ⟨_, _, true, _⟩ => .error .isDirectory
  | .ok ⟨_, some (.file number content), false, _⟩ => .ok (fs, ⟨number, none⟩, content.size)
  | .ok ⟨location, none, false, _⟩ => .ok (fs.addFile location, ⟨fs.nextNumber, none⟩, 0)

/-- Opens a file for writing from its beginning, after emptying it; a missing one is made first. A
path with a slash at its end is refused as that of a directory. -/
def openEmptied (fs : FileSystem) (path : Path) : Except DiskError (FileSystem × Handle) :=
  match fs.resolve path with
  | .error e => .error e
  | .ok ⟨_, some .directory, _, _⟩ => .error .isDirectory
  | .ok ⟨_, _, true, _⟩ => .error .isDirectory
  | .ok ⟨location, some (.file number _), false, _⟩ =>
    .ok (fs.set location (.file number ByteArray.empty), ⟨number, some 0⟩)
  | .ok ⟨location, none, false, _⟩ => .ok (fs.addFile location, ⟨fs.nextNumber, some 0⟩)

/-- The content with bytes written at an offset; a gap before them is filled with zeros. -/
def overwrite (content : ByteArray) (offset : Nat) (bytes : ByteArray) : ByteArray :=
  let gap := ByteArray.mk (Array.replicate (offset - content.size) 0)
  content.extract 0 offset ++ gap ++ bytes ++
    content.extract (offset + bytes.size) content.size

/-- The content after a write. -/
def written (content : ByteArray) (offset : Option Nat) (bytes : ByteArray) : ByteArray :=
  match offset with
  | none => content ++ bytes
  | some offset => overwrite content offset bytes

/-- Writes all the bytes through a handle. Writing no bytes does nothing. -/
def write (fs : FileSystem) (handle : Handle) (bytes : ByteArray) :
    Except DiskError (FileSystem × Handle) :=
  if bytes.size = 0 then .ok (fs, handle)
  else if fs.full then .error .noSpace
  else
    let filled : Entry → Entry
      | .directory => .directory
      | .file number content =>
        if number = handle.number then .file number (written content handle.offset bytes)
        else .file number content
    .ok ({ fs with entries := fs.entries.map fun (location, entry) => (location, filled entry) },
      { handle with offset := handle.offset.map (· + bytes.size) })

/-- Removes a file. -/
def remove (fs : FileSystem) (path : Path) : Except DiskError FileSystem :=
  match fs.resolve path with
  | .error e => .error e
  | .ok ⟨_, none, _, _⟩ => .error .notFound
  | .ok ⟨_, some .directory, _, _⟩ => .error .isDirectory
  | .ok ⟨_, some (.file _ _), true, _⟩ => .error .notDirectory
  | .ok ⟨location, some (.file _ _), false, _⟩ => .ok (fs.unset location)

/-- Whether a location is the other one or lies below it. -/
def within (location other : Location) : Bool :=
  other.isSuffixOf location

/-- The location of an entry after what is at `source` has moved to `target`. -/
def moved (source target location : Location) : Location :=
  if within location source then location.take (location.length - source.length) ++ target
  else location

/-- Moves an entry from one location to another, with all below it. -/
def moveAll (fs : FileSystem) (source target : Location) : FileSystem :=
  { fs with
    entries := fs.entries.map fun (location, entry) => (moved source target location, entry) }

/-- Whether there is something below a location. -/
def isOccupied (fs : FileSystem) (location : Location) : Bool :=
  fs.entries.any fun (other, _) => other ≠ location && within other location

/-- Moves a file to a location at which there may be an entry. -/
def renameFile (fs : FileSystem) (source target : Location) (file : Entry) :
    Option Entry → Except DiskError FileSystem
  | some .directory => .error .isDirectory
  | _ => if source = target then .ok fs else .ok ((fs.unset source).set target file)

/-- Moves a directory to a location at which there may be an entry. -/
def renameDirectory (fs : FileSystem) (source target : Location) :
    Option Entry → Except DiskError FileSystem
  | some (.file _ _) => .error .notDirectory
  | some .directory =>
    if source = target then .ok fs
    else if fs.isOccupied target then .error .directoryNotEmpty
    else .ok ((fs.unset target).moveAll source target)
  | none => .ok (fs.moveAll source target)

/-- Moves a file, or a directory with all below it, to another path. A file replaces a file, a
directory replaces an empty directory. Both paths have to end in names, and that of a file may not
have a slash behind the name. -/
def rename (fs : FileSystem) (source target : Path) : Except DiskError FileSystem :=
  match fs.resolve source, fs.resolve target with
  | .error e, _ => .error e
  | _, .error e => .error e
  | .ok old, .ok new =>
    if !old.isNamed || !new.isNamed then .error .busy
    else
      match old.entry with
      | none => .error .notFound
      | some .directory => fs.renameDirectory old.location new.location new.entry
      | some file =>
        if old.slash || new.slash then .error .notDirectory
        else fs.renameFile old.location new.location file new.entry

/-- Removes whatever a path leads to, a directory with all below it. -/
def removeTree (fs : FileSystem) (path : Path) : FileSystem :=
  match fs.resolve path with
  | .ok ⟨location, some _, _, _⟩ =>
    { fs with entries := fs.entries.filter fun (other, _) => !within other location }
  | _ => fs

/-- Gives a file its content from outside, making the directories it lies in. -/
def place (fs : FileSystem) (path : Path) (content : ByteArray) : FileSystem :=
  let prepared := (fs.makeParents path).1
  match prepared.openEmptied path with
  | .error _ => prepared
  | .ok (opened, handle) =>
    match opened.write handle content with
    | .error _ => opened
    | .ok (filled, _) => filled

/-- The path of a location from the working directory, with a slash after a directory, if the
location lies below it. -/
def shownPath? (fs : FileSystem) (location : Location) (entry : Entry) : Option String :=
  let depth := location.length - fs.workingDirectory.length
  if depth = 0 ∨ location.drop depth ≠ fs.workingDirectory then none
  else
    let path := String.intercalate "/" (location.take depth).reverse
    match entry with
    | .directory => some (path ++ "/")
    | .file _ _ => some path

/-- Everything below the working directory: a path for each entry, with the content of a file. -/
def tree (fs : FileSystem) : List (String × Option ByteArray) :=
  fs.entries.filterMap fun (location, entry) =>
    (fs.shownPath? location entry).map fun path =>
      (path, match entry with
        | .directory => none
        | .file _ content => some content)

end FileSystem

end KeyValueService
