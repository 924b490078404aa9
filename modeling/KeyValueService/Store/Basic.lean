import KeyValueService.Disk.FileSystem
import KeyValueService.Store.Image

/-!
# The store

A table of keys and values, kept in a file if it has a path. Every change is saved before it is
answered: the new image is written beside the file and then moved over it, so that the file is
replaced as a whole. A change that cannot be saved is undone.
-/

namespace KeyValueService

open Store

/-- Why a store cannot do what it is asked. A poisoned store was left in the middle of a change. -/
inductive StoreError
  | disk (cause : DiskError)
  | poisoned
  deriving DecidableEq, Repr

/-- The wording of an error. -/
def StoreError.message : StoreError → String
  | .disk cause => "store I/O error: " ++ cause.message
  | .poisoned => "store lock poisoned"

/-- Keys and values, and the path of the file that keeps them. -/
structure Store where
  path : Option Path
  table : Table String

namespace Store

/-- An empty store that is not kept in a file. -/
def inMemory : Store := ⟨none, .empty⟩

/-- Opens the store kept at a path, with reports of the lines skipped. A missing file is that of an
empty store. -/
def openAt (fs : FileSystem) (path : Path) : Except StoreError (Store × List MalformedLine) :=
  match fs.readText path with
  | .ok text =>
    let (table, malformed) := readImage text
    .ok (⟨some path, table⟩, malformed.map (⟨·, path⟩))
  | .error .notFound => .ok (⟨some path, .empty⟩, [])
  | .error cause => .error (.disk cause)

/-- Opens the store kept at a path, or one that is not kept if there is no path. -/
def openAt? (fs : FileSystem) : Option Path → Except StoreError (Store × List MalformedLine)
  | none => .ok (inMemory, [])
  | some path => openAt fs path

/-- The path that an image is written to before it replaces the one at `path`. -/
def draftPath (path : Path) : Path :=
  path.withExtension "tmp"

/-- One of the steps in which an image is saved. -/
inductive SaveStep
  | makeParents (path : Path)
  | openDraft (path : Path)
  | write (bytes : ByteArray)
  | replace (draft path : Path)

/-- The steps that save an image at a path, in order. -/
def saveSteps (path : Path) (bytes : ByteArray) : List SaveStep :=
  [.makeParents path, .openDraft (draftPath path), .write bytes, .replace (draftPath path) path]

/-- A file system in the middle of saving, with the draft once it is open. -/
structure Saving where
  files : FileSystem
  draft : Option Handle

/-- Carries a step out. Nothing is written while no draft is open. -/
def SaveStep.run (s : Saving) : SaveStep → Saving × Except DiskError Unit
  | .makeParents path =>
    let (files, result) := s.files.makeParents path
    ({ s with files }, result)
  | .openDraft path =>
    match s.files.openEmptied path with
    | .error e => (s, .error e)
    | .ok (files, handle) => (⟨files, some handle⟩, .ok ())
  | .write bytes =>
    match s.draft with
    | none => (s, .ok ())
    | some handle =>
      match s.files.write handle bytes with
      | .error e => (s, .error e)
      | .ok (files, handle) => (⟨files, some handle⟩, .ok ())
  | .replace draft path =>
    match s.files.rename draft path with
    | .error e => (s, .error e)
    | .ok files => ({ s with files }, .ok ())

/-- Carries steps out one after the other, up to the first that fails. -/
def runSteps (s : Saving) : List SaveStep → Saving × Except DiskError Unit
  | [] => (s, .ok ())
  | step :: rest =>
    match step.run s with
    | (s, .error e) => (s, .error e)
    | (s, .ok ()) => runSteps s rest

/-- Saves a table at the path of the store, if it has one. -/
def save (fs : FileSystem) (path : Option Path) (table : Table String) :
    FileSystem × Except DiskError Unit :=
  match path with
  | none => (fs, .ok ())
  | some path =>
    let (saving, result) := runSteps ⟨fs, none⟩ (saveSteps path (image table).toUTF8)
    (saving.files, result)

/-- A way to save a table at the path of a store. -/
abbrev Saver :=
  FileSystem → Option Path → Table String → FileSystem × Except DiskError Unit

/-- Saves a changed table. If it cannot be saved, the change is undone on it. -/
def commitBy (saver : Saver) (fs : FileSystem) (store : Store) (changed : Table String)
    (undo : Table String → Table String) : FileSystem × Store × Except StoreError Unit :=
  match saver fs store.path changed with
  | (fs, .ok ()) => (fs, { store with table := changed }, .ok ())
  | (fs, .error cause) => (fs, { store with table := undo changed }, .error (.disk cause))

/-- The value of a key. -/
def get? (store : Store) (key : String) : Option String :=
  store.table.find? key

/-- The number of keys. -/
def size (store : Store) : Nat :=
  store.table.size

/-- Gives a key the value again that it had before it was given one, or none if it had none. -/
def undoPut (key : String) (previous : Option String) (changed : Table String) : Table String :=
  match previous with
  | some old => changed.insert key old
  | none => changed.erase key

/-- Gives a key a value. -/
def putBy (saver : Saver) (fs : FileSystem) (store : Store) (key value : String) :
    FileSystem × Store × Except StoreError Unit :=
  store.commitBy saver fs (store.table.insert key value) (undoPut key (store.table.find? key))

/-- Gives a key that has a value another one, and tells whether it had one. -/
def updateBy (saver : Saver) (fs : FileSystem) (store : Store) (key value : String) :
    FileSystem × Store × Except StoreError Bool :=
  match store.table.find? key with
  | none => (fs, store, .ok false)
  | some old =>
    match store.commitBy saver fs (store.table.insert key value) (·.insert key old) with
    | (fs, store, .ok ()) => (fs, store, .ok true)
    | (fs, store, .error e) => (fs, store, .error e)

/-- Takes the value of a key away, and tells whether it had one. -/
def removeBy (saver : Saver) (fs : FileSystem) (store : Store) (key : String) :
    FileSystem × Store × Except StoreError Bool :=
  match store.table.find? key with
  | none => (fs, store, .ok false)
  | some old =>
    match store.commitBy saver fs (store.table.erase key) (·.insert key old) with
    | (fs, store, .ok ()) => (fs, store, .ok true)
    | (fs, store, .error e) => (fs, store, .error e)

/-- A put that is undone leaves the table as it was. -/
theorem undoPut_insert (table : Table String) (key value : String) :
    undoPut key (table.find? key) (table.insert key value) = table := by
  cases had : table.find? key with
  | none => exact Table.erase_insert_of_find? had value
  | some old => exact Table.insert_insert_of_find? had value

/-- A change that can be undone leaves the store as it was when it cannot be saved. -/
theorem commitBy_of_undo {store : Store} {changed : Table String}
    {undo : Table String → Table String} (restores : undo changed = store.table) (saver : Saver)
    (fs : FileSystem) :
    store.commitBy saver fs changed undo =
      match saver fs store.path changed with
      | (fs, .ok ()) => (fs, { store with table := changed }, .ok ())
      | (fs, .error cause) => (fs, store, .error (.disk cause)) := by
  rw [commitBy, restores]

/-- Gives a key a value and saves the table. -/
def put (fs : FileSystem) (store : Store) (key value : String) :
    FileSystem × Store × Except StoreError Unit :=
  store.putBy save fs key value

/-- Gives a key that has a value another one and saves the table. -/
def update (fs : FileSystem) (store : Store) (key value : String) :
    FileSystem × Store × Except StoreError Bool :=
  store.updateBy save fs key value

/-- Takes the value of a key away and saves the table. -/
def remove (fs : FileSystem) (store : Store) (key : String) :
    FileSystem × Store × Except StoreError Bool :=
  store.removeBy save fs key

end Store

end KeyValueService
