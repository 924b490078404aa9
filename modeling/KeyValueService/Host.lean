import KeyValueService.Disk.FileSystem

/-!
# Hosts

What a running program has around it: a file system, its standard output and its standard error.
Standard output accepts every byte; standard error is told whole lines.
-/

namespace KeyValueService

/-- A file system, the bytes on standard output and the lines on standard error. -/
structure Host where
  files : FileSystem
  output : ByteArray
  reports : List String

namespace Host

/-- A host on which nothing has been written to the standard streams. -/
def ofFiles (files : FileSystem) : Host :=
  ⟨files, ByteArray.empty, []⟩

instance : Inhabited Host := ⟨ofFiles default⟩

/-- Writes a line to standard error. -/
def report (host : Host) (line : String) : Host :=
  { host with reports := host.reports ++ [line] }

/-- Writes lines to standard error. -/
def reportAll (host : Host) (lines : List String) : Host :=
  { host with reports := host.reports ++ lines }

/-- Writes bytes to standard output. -/
def print (host : Host) (bytes : ByteArray) : Host :=
  { host with output := host.output ++ bytes }

end Host

end KeyValueService
