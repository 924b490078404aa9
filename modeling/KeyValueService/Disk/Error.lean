/-!
# Disk errors

Why a disk refuses an operation, and how each refusal is worded.
-/

namespace KeyValueService

/-- Why an operation on files, or on a stream of bytes, fails. -/
inductive DiskError
  | notFound
  | busy
  | alreadyExists
  | notDirectory
  | isDirectory
  | noSpace
  | nameTooLong
  | directoryNotEmpty
  | nulInName
  | notUtf8
  | nothingWritten
  | other (text : String)
  deriving DecidableEq, Repr, Inhabited

/-- The wording of a failure; those of the operating system carry its number. -/
def DiskError.message : DiskError → String
  | .notFound => "No such file or directory (os error 2)"
  | .busy => "Device or resource busy (os error 16)"
  | .alreadyExists => "File exists (os error 17)"
  | .notDirectory => "Not a directory (os error 20)"
  | .isDirectory => "Is a directory (os error 21)"
  | .noSpace => "No space left on device (os error 28)"
  | .nameTooLong => "File name too long (os error 36)"
  | .directoryNotEmpty => "Directory not empty (os error 39)"
  | .nulInName => "file name contained an unexpected NUL byte"
  | .notUtf8 => "stream did not contain valid UTF-8"
  | .nothingWritten => "failed to write whole buffer"
  | .other text => text

end KeyValueService
