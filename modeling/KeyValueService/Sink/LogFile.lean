import KeyValueService.Disk.Buffered
import KeyValueService.Sink.LogSeries
import KeyValueService.Sink.Outcome

/-!
# Log files

A log file appends records to file 0 of its series and rotates the series before a record that would
make file 0 too long. The size of file 0 is counted along and not asked from the disk again. A record
that is too long for itself gets a file of its own: an empty file is never rotated. Where file 0
cannot be opened, the records go to standard output instead and nothing is rotated any more.
-/

namespace KeyValueService

/-- The series written to, file 0 unless records go to standard output, and the bytes counted. -/
structure LogFile where
  series : LogSeries
  current : Option BufferedFile
  size : Nat

namespace LogFile

open LogSeries

/-- Opens file 0 for appending, after making the directories it lies in. -/
def openCurrent (s : LogSeries) (files : FileSystem) :
    FileSystem × Except DiskError (Handle × Nat) :=
  match files.makeParents (s.path 0) with
  | (files, .error e) => (files, .error e)
  | (files, .ok ()) =>
    match files.openToAppend (s.path 0) with
    | .error e => (files, .error e)
    | .ok (files, handle, size) => (files, .ok (handle, size))

/-- Opens an empty file 0, after making the directories it lies in. -/
def openFresh (s : LogSeries) (files : FileSystem) : FileSystem × Except DiskError Handle :=
  match files.makeParents (s.path 0) with
  | (files, .error e) => (files, .error e)
  | (files, .ok ()) =>
    match files.openEmptied (s.path 0) with
    | .error e => (files, .error e)
    | .ok (files, handle) => (files, .ok handle)

/-- The report that file 0 cannot be opened. -/
def fallbackReport (verb : String) (s : LogSeries) (e : DiskError) : String :=
  complaint ("cannot " ++ verb ++ " " ++ (s.path 0).text ++ ": " ++ e.message ++
    "; falling back to stdout")

/-- Starts writing to a series. -/
def start (s : LogSeries) (host : Host) : LogFile × Host :=
  match openCurrent s host.files with
  | (files, .ok (handle, size)) => (⟨s, some (.ofHandle handle), size⟩, { host with files })
  | (files, .error e) =>
    (⟨s, none, 0⟩, { host with files }.report (fallbackReport "open" s e))

/-- Whether records go to standard output. -/
def isFallback (f : LogFile) : Bool :=
  f.current.isNone

/-- Closes file 0 after a last attempt to write what is held back. -/
def closeCurrent (f : LogFile) (host : Host) : Host :=
  match f.current with
  | none => host
  | some file =>
    match file.flush host.files with
    | (files, file, .ok ()) => { host with files := file.close files }
    | (files, file, .error e) =>
      { host with files := file.close files }.report
        (complaint ("flush before rotation failed: " ++ e.message))

/-- Goes on with an empty file 0, or with standard output where it cannot be opened. -/
def reopen (s : LogSeries) (host : Host) : LogFile × Host :=
  match openFresh s host.files with
  | (files, .ok handle) => (⟨s, some (.ofHandle handle), 0⟩, { host with files })
  | (files, .error e) =>
    (⟨s, none, 0⟩, { host with files }.report (fallbackReport "reopen" s e))

/-- Closes file 0, makes room for a new one and opens it. -/
def rotate (f : LogFile) (host : Host) : LogFile × Host :=
  reopen f.series (f.series.advance (f.closeCurrent host))

/-- Whether more bytes would make a file 0 that is not empty too long. -/
def isDue (f : LogFile) (more : Nat) : Bool :=
  !f.isFallback && decide (0 < f.size ∧ f.series.maxBytes < f.size + more)

/-- Writes bytes to where the records go and counts them. -/
def append (f : LogFile) (host : Host) (bytes : ByteArray) : LogFile × Host × Outcome :=
  match f.current with
  | none => ({ f with size := f.size + bytes.size }, host.print bytes, .completed)
  | some file =>
    match file.write host.files bytes with
    | (files, file, .ok ()) =>
      ({ f with current := some file, size := f.size + bytes.size }, { host with files },
        .completed)
    | (files, file, .error e) =>
      ({ f with current := some file }, { host with files }, .failed (.disk e))

/-- Writes a record, after rotating the series if that is due. -/
def consume (f : LogFile) (host : Host) (r : Record) : LogFile × Host × Outcome :=
  let bytes := f.series.line r
  let (f, host) := if f.isDue bytes.size then f.rotate host else (f, host)
  f.append host bytes

/-- Writes what is held back. -/
def flush (f : LogFile) (host : Host) : LogFile × Host × Outcome :=
  match f.current with
  | none => (f, host, .completed)
  | some file =>
    let (files, file, result) := file.flush host.files
    ({ f with current := some file }, { host with files }, .ofExcept result)

/-- Stops writing, after a last attempt to write what is held back. -/
def close (f : LogFile) (host : Host) : Host :=
  match f.current with
  | none => host
  | some file => { host with files := file.close host.files }

end LogFile

end KeyValueService
