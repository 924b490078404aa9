import KeyValueService.Logger.Outlets
import KeyValueService.Pipeline.Basic
import KeyValueService.Settings.Logging

/-!
# Loggers

A logger is a running pipeline with the standard sinks, set up as the logging options say. Its
history is always there and answers queries; console and log file are there on demand.
-/

namespace KeyValueService

/-- A pipeline with the standard sinks among its sinks. -/
abbrev Logger (α κ τ : Type) := Pipeline (Outlet α) κ (Outlets τ)

namespace Logger

variable {α κ τ : Type}

/-- The log file that the options ask for, if any, opened. -/
def openFile (options : LoggingOptions) (host : Host) : Option LogFile × Host :=
  match options.filePath with
  | none => (none, host)
  | some base =>
    let series := LogSeries.of base options.fileMaxBytes options.fileMaxFiles options.fileStyle
    let (file, host) := LogFile.start series host
    (some file, host)

/-- The standard sinks that are there, in the order in which they get a record. -/
def standardSinks (options : LoggingOptions) : List (Outlet α) :=
  (if options.console.isSome then [.console] else []) ++ [.history] ++
    (if options.filePath.isSome then [.file] else [])

/-- Whether the history that the options ask for can be set up; without it there is no logger. -/
def canLaunch (options : LoggingOptions) : Bool :=
  History.hasRoom options.globalCapacity

/-- Starts a logger. -/
def launch (options : LoggingOptions) (host : Host) (others : τ) : Logger α κ τ :=
  let (file, host) := openFile options host
  let outlets : Outlets τ :=
    { host
      console := options.console.map Console.ofStyle
      history := .empty options.globalCapacity options.sessionCapacity
      file
      others }
  let pipeline := (Pipeline.create options.queueCapacity outlets).setThreshold options.threshold
  ((standardSinks options).foldl Pipeline.addSink pipeline).start

/-- Stops a logger for good and closes its log file; what is left is the host. -/
def finish (s : Surroundings (Outlet α) κ (Outlets τ)) (logger : Logger α κ τ) : Host :=
  (logger.shutdown s true).outside.closeFile.host

end Logger

end KeyValueService
