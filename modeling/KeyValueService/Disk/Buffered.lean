import KeyValueService.Disk.FileSystem

/-!
# Buffered files

An open file with the bytes that were written to it but have not reached the disk yet. Bytes are
held back until they no longer fit into the buffer, or until the buffer is flushed.
-/

namespace KeyValueService

/-- An open file and the bytes held back. -/
structure BufferedFile where
  handle : Handle
  pending : ByteArray

namespace BufferedFile

/-- How many bytes are held back at most. -/
def capacity : Nat := 8192

/-- An open file with nothing held back. -/
def ofHandle (handle : Handle) : BufferedFile :=
  ⟨handle, ByteArray.empty⟩

/-- Writes what is held back. If the disk refuses, it stays held back. -/
def flush (fs : FileSystem) (file : BufferedFile) :
    FileSystem × BufferedFile × Except DiskError Unit :=
  match fs.write file.handle file.pending with
  | .ok (fs, handle) => (fs, ofHandle handle, .ok ())
  | .error e => (fs, file, .error e)

/-- Holds the bytes back if they fit; otherwise what is held back is written first, and bytes that
fill the whole buffer are written right away. -/
def write (fs : FileSystem) (file : BufferedFile) (bytes : ByteArray) :
    FileSystem × BufferedFile × Except DiskError Unit :=
  if file.pending.size + bytes.size ≤ capacity ∧ bytes.size < capacity then
    (fs, { file with pending := file.pending ++ bytes }, .ok ())
  else
    match file.flush fs with
    | (fs, file, .error e) => (fs, file, .error e)
    | (fs, file, .ok ()) =>
      if bytes.size < capacity then (fs, { file with pending := file.pending ++ bytes }, .ok ())
      else
        match fs.write file.handle bytes with
        | .ok (fs, handle) => (fs, { file with handle }, .ok ())
        | .error e => (fs, file, .error e)

/-- Closes the file after a last attempt to write what is held back. -/
def close (fs : FileSystem) (file : BufferedFile) : FileSystem :=
  (file.flush fs).1

end BufferedFile

end KeyValueService
