import KeyValueService.Service.Address
import KeyValueService.Service.Basic
import KeyValueService.Settings.Serving

/-!
# Launching

From the command line to a service that is ready to listen. Settings that cannot be read are
reported, and standard ones take their place. Tokens or a store that cannot be read, and an address
that is none, are logged and end the program.
-/

namespace KeyValueService

/-- What the command line asks for. -/
inductive Invocation
  | usage
  | newToken
  | serve (settingsPath : String)
  deriving DecidableEq, Repr

namespace Invocation

/-- The settings that are read unless the command line names others. -/
def standardPath : String := "keyforge.conf"

/-- Reads the arguments of the command line. -/
def read : List String → Invocation
  | [] => serve standardPath
  | [argument] => if argument = "--gen-token" then newToken else serve argument
  | _ => usage

/-- How the program can be called under a name. -/
def usageLines (program : String) : List String :=
  ["Usage:",
    "  " ++ program ++ "                # use ./" ++ standardPath,
    "  " ++ program ++ " [CONFIG]       # e.g. /etc/keyforge.conf",
    "  " ++ program ++ " --gen-token    # print a new auth token"]

/-- A new token and the digest that a token file would list. -/
def tokenLines (token : String) : List String :=
  ["token:  " ++ token, "digest: " ++ (tokenDigest token).hex]

end Invocation

/-- Why the program ends before it serves anyone. -/
inductive LaunchError
  | tokens (cause : DiskError)
  | store (cause : StoreError)
  | address (text : String) (cause : AddressError)
  deriving DecidableEq, Repr

namespace LaunchError

/-- The wording of the reason. -/
def message : LaunchError → String
  | tokens cause => "failed to load auth tokens: " ++ cause.message
  | store cause => "failed to open store: " ++ cause.message
  | address text cause => "failed to bind " ++ text ++ ": " ++ cause.message

/-- The exit code of the program. -/
def exitCode : LaunchError → Nat
  | tokens _ => 2
  | store _ => 2
  | address _ _ => 1

end LaunchError

namespace Launch

/-- A report of the program itself. -/
def complaint (e : SettingsError) (remedy : String) : String :=
  "[keyforge_server] " ++ e.message ++ "; " ++ remedy

/-- Reads the settings, or reports why not and goes on without any. -/
def loadSettings (host : Host) (path : String) : Settings × Host :=
  match Settings.load host.files path with
  | .ok settings => (settings, host)
  | .error e => (.empty, host.report (complaint e "using defaults"))

/-- Reads the logging options, or reports why not and goes on with the standard ones. -/
def loadLoggingOptions (host : Host) (settings : Settings) : LoggingOptions × Host :=
  match LoggingOptions.ofSettings settings with
  | .ok options => (options, host)
  | .error e => (.standard, host.report (complaint e "using default logging settings"))

/-- Writes lines to the standard error of the host of a logger. -/
def reportAll (log : ServiceLog) (lines : List String) : ServiceLog :=
  { log with outside.host := log.outside.host.reportAll lines }

/-- The event that is logged once the service is ready. -/
def readyMessage (options : ServingOptions) (s : Service) : String :=
  let data :=
    match s.store.path with
    | some path => "Some(" ++ Text.quoted path.text ++ ")"
    | none => "None"
  let access := if s.gate.isRequired then "tokens" else "off"
  "starting keyforge on " ++ options.address ++ " (data: " ++ data ++ ", " ++
    toString s.store.size ++ " keys loaded, auth: " ++ access ++ ")"

/-- Makes a service ready to listen. What was logged and reported on the way is in the logger, also
if the service does not get ready. -/
def prepare (origin : Origin) (options : ServingOptions) (log : ServiceLog) :
    ServiceLog × Except LaunchError (Service × Address) :=
  match options.gate tokenDigest log.outside.host.files with
  | .error cause => (log, .error (.tokens cause))
  | .ok (gate, malformed) =>
    let log := reportAll log (malformed.map MalformedDigest.message)
    match Store.openAt? log.outside.host.files options.dataFile with
    | .error cause => (log, .error (.store cause))
    | .ok (store, malformed) =>
      let log := reportAll log (malformed.map Store.MalformedLine.message)
      let s : Service := ⟨log, store, gate, false⟩
      let s := s.logEvent origin .info none (readyMessage options s)
      match Address.read options.address with
      | .error cause => (s.log, .error (.address options.address cause))
      | .ok address => (s.log, .ok (s, address))

/-- The exit code of a program that crashes. -/
def crashCode : Nat := 101

/-- Starts the program with settings: a service that is ready to listen, or the exit code and the
host after everything that was logged has been written. Without a logger the program crashes. -/
def start (origin : Origin) (host : Host) (settingsPath : String) :
    Except (Nat × Host) (Service × Address) :=
  let (settings, host) := loadSettings host settingsPath
  let (loggingOptions, host) := loadLoggingOptions host settings
  if !Logger.canLaunch loggingOptions then .error (crashCode, host)
  else
    let log : ServiceLog := Logger.launch loggingOptions host ()
    match prepare origin (.ofSettings settings) log with
    | (_, .ok ready) => .ok ready
    | (log, .error e) =>
      let log := log.state standardOutlets origin .error none e.message
      .error (e.exitCode, Logger.finish standardOutlets log)

end Launch

end KeyValueService
