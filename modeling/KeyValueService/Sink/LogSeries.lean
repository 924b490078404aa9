import KeyValueService.Host
import KeyValueService.Record.Style

/-!
# Series of log files

The numbered files of a log: file 0 is the one being written, file 1 the one before it, and so on.
Rotation makes room for a new file 0 by renaming each file to the next number, from the highest
number down, after removing the file with the last number that is kept.
-/

namespace KeyValueService

/-- Where the files of a log are, the size that file 0 should not exceed, how many files are kept
besides it, and the style of their lines. -/
structure LogSeries where
  base : Path
  maxBytes : Nat
  maxFiles : Nat
  style : FileStyle
  maxFiles_pos : 0 < maxFiles

namespace LogSeries

/-- A series that keeps at least one file besides file 0. -/
def of (base : Path) (maxBytes maxFiles : Nat) (style : FileStyle) : LogSeries :=
  ⟨base, maxBytes, max maxFiles 1, style, Nat.le_max_right maxFiles 1⟩

/-- The path of a file by its number. -/
def path (s : LogSeries) (number : Nat) : Path :=
  ⟨s.base.text ++ "." ++ toString number ++ ".log"⟩

/-- The bytes of a record in a file: its text and a line break. -/
def line (s : LogSeries) (r : Record) : ByteArray :=
  (s.style.render r ++ "\n").toUTF8

/-- A report about the series. -/
def complaint (words : String) : String :=
  "[RotatingFileSink] " ++ words

/-- Removes the file with the last number that is kept. That there is none is no failure. -/
def dropOldest (s : LogSeries) (host : Host) : Host :=
  let oldest := s.path s.maxFiles
  match host.files.remove oldest with
  | .ok files => { host with files }
  | .error .notFound => host
  | .error e => host.report (complaint ("cannot remove " ++ oldest.text ++ ": " ++ e.message))

/-- Renames a file, if it is there, to the next number. -/
def shift (s : LogSeries) (host : Host) (number : Nat) : Host :=
  let source := s.path number
  let target := s.path (number + 1)
  if host.files.pathExists source then
    match host.files.rename source target with
    | .ok files => { host with files }
    | .error e => host.report (complaint
        ("cannot rename " ++ source.text ++ " -> " ++ target.text ++ ": " ++ e.message))
  else host

/-- Renames the files below a number to the next number each, the highest first. -/
def shiftBelow (s : LogSeries) (host : Host) : Nat → Host
  | 0 => host
  | number + 1 => s.shiftBelow (s.shift host number) number

/-- Makes room for a new file 0. -/
def advance (s : LogSeries) (host : Host) : Host :=
  s.shiftBelow (s.dropOldest host) s.maxFiles

end LogSeries

end KeyValueService
