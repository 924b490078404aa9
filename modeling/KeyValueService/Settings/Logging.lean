import KeyValueService.Pipeline.Basic
import KeyValueService.Record.Style
import KeyValueService.Settings.Basic

/-!
# Logging options

What the settings say about logging, in their section `Logging`: the threshold, how much is kept in
memory, and the console and the files that records go to.
-/

namespace KeyValueService

open Text

/-- How logging is set up. Without a console or without a file path, no records go there. -/
structure LoggingOptions where
  threshold : Level
  queueCapacity : Nat
  globalCapacity : Nat
  sessionCapacity : Nat
  console : Option ConsoleStyle
  filePath : Option Path
  fileMaxBytes : Nat
  fileMaxFiles : Nat
  fileStyle : FileStyle
  deriving DecidableEq, Repr

namespace LoggingOptions

/-- The options where the settings say nothing. -/
def standard : LoggingOptions where
  threshold := .info
  queueCapacity := Pipeline.standardCapacity
  globalCapacity := History.standardCapacity
  sessionCapacity := History.standardSessionCapacity
  console := some .colored
  filePath := none
  fileMaxBytes := 10 * 1024 * 1024
  fileMaxFiles := 5
  fileStyle := .line

/-- The section that the options are read from. -/
def group : String := "Logging"

/-- Whether a value turns the console off. -/
def turnsOff (value : String) : Bool :=
  lowerAscii value = "off" || lowerAscii value = "none"

/-- Reads the console style, or none if the console is turned off. -/
def readConsole (s : Settings) : Except SettingsError (Option ConsoleStyle) :=
  if turnsOff (s.getFilledD group "console" "colored") then .ok none
  else
    (s.readD ConsoleStyle.read UnknownStyle.message group "console" .colored).map some

/-- Reads the options. The console comes first, so that of several faults its is reported. -/
def ofSettings (s : Settings) : Except SettingsError LoggingOptions := do
  let console ← readConsole s
  let threshold ← s.readD Level.read UnknownLevel.message group "level" standard.threshold
  let queueCapacity ← s.readCountD group "queue_capacity" standard.queueCapacity
  let globalCapacity ← s.readCountD group "global_capacity" standard.globalCapacity
  let sessionCapacity ← s.readCountD group "session_capacity" standard.sessionCapacity
  let filePath := (s.getFilled? group "file_path").map Path.mk
  let fileMaxBytes ← s.readCountD group "file_max_bytes" standard.fileMaxBytes
  let fileMaxFiles ← s.readCountD group "file_max_files" standard.fileMaxFiles
  let fileStyle ←
    s.readD FileStyle.read UnknownStyle.message group "file_format" standard.fileStyle
  return { threshold, queueCapacity, globalCapacity, sessionCapacity, console, filePath,
           fileMaxBytes, fileMaxFiles, fileStyle }

end LoggingOptions

end KeyValueService
