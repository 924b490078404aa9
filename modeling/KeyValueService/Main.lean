import KeyValueService.Launch
import KeyValueService.Service.Server
import Std.Time.DateTime.Timestamp

/-!
# The program

The command line. What the program does is decided in the other modules, on values; here the files
that it may touch are read from the disk and written back, and what it says is printed. A service
that is ready serves the standard streams as the one connection of a local client.
-/

namespace KeyValueService.Main

/-- The present instant, for an event of the main thread. -/
def now : IO Origin := do
  let instant ← Std.Time.Timestamp.now
  return ⟨.ofSeconds 0 instant.toNanosecondsSinceUnixEpoch.val, 1⟩

/-- The files that the program may touch. -/
def watchedPaths (settingsPath : String) (settings : Settings) : List Path :=
  let logging := (LoggingOptions.ofSettings settings).toOption.getD .standard
  let serving := ServingOptions.ofSettings settings
  let logPaths :=
    match logging.filePath with
    | none => []
    | some base =>
      let series := LogSeries.of base logging.fileMaxBytes logging.fileMaxFiles logging.fileStyle
      (List.range (series.maxFiles + 1)).map series.path
  let dataPaths := serving.dataFile.toList.flatMap fun path => [path, Store.draftPath path]
  ⟨settingsPath⟩ :: serving.tokensFile.toList ++ dataPaths ++ logPaths

/-- Takes over what the disk has at a path. -/
def fetch (fs : FileSystem) (path : Path) : IO FileSystem := do
  try
    let place ← IO.FS.realPath path.text
    if ← place.isDir then return (fs.makeDirectories path).1
    else return fs.place path (← IO.FS.readBinFile place)
  catch _ => return fs

/-- A file system with the working directory and nothing in it. -/
def emptyFiles : IO FileSystem := do
  let names := (← IO.currentDir).components.filter (· ≠ "")
  let top := (FileSystem.empty.makeDirectories ⟨"/" ++ String.intercalate "/" names⟩).1
  return { top with workingDirectory := names.reverse }

/-- Brings what has changed at the paths to the disk. -/
def writeBack (before after : FileSystem) (paths : List Path) : IO Unit :=
  paths.forM fun path => do
    let old := (before.readBytes path).toOption
    match (after.readBytes path).toOption with
    | some content =>
      if old.map (·.data) ≠ some content.data then
        if let some parent := path.parent? then
          if parent.text ≠ "" then IO.FS.createDirAll parent.text
        IO.FS.writeBinFile path.text content
    | none => if old.isSome then IO.FS.removeFile path.text

/-- Prints what a host was told to print. -/
def printHost (host : Host) : IO Unit := do
  (← IO.getStdout).write host.output
  host.reports.forM fun line => IO.eprintln line

/-- Lets the worker finish, prints what it has left to print, and saves the files. -/
def settle (paths : List Path) (server : Server) (before : FileSystem) : IO Server := do
  let log := (server.service.log.drain standardOutlets).flush standardOutlets
  let host := log.outside.host
  printHost host
  writeBack before host.files paths
  return { server with service.log := { log with outside.host := .ofFiles host.files } }

/-- Serves the client on the standard streams until its connection is closed. -/
partial def serve (paths : List Path) (server : Server) : IO Server := do
  let piece ← (← IO.getStdin).read 8192
  let arrival : Arrival := if piece.isEmpty then .finish else .bytes piece.data.toList
  let sentBefore := (server.connections.flatMap (·.sent)).length
  let before := server.service.files
  let server := server.arrive (← now) 0 arrival
  let answers := (server.connections.flatMap (·.sent)).drop sentBefore
  (← IO.getStdout).putStr (String.join (answers.map Response.text))
  let server ← settle paths server before
  (← IO.getStdout).flush
  if server.openCount = 0 then return server
  serve paths server

/-- Runs the service. -/
def runService (settingsPath : String) : IO UInt32 := do
  let start ← fetch (← emptyFiles) ⟨settingsPath⟩
  let settings := (Settings.load start settingsPath).toOption.getD .empty
  let paths := watchedPaths settingsPath settings
  let files ← paths.foldlM fetch start
  match Launch.start (← now) (.ofFiles files) settingsPath with
  | .error (code, host) =>
    printHost host
    writeBack files host.files paths
    return code.toUInt32
  | .ok (service, address) =>
    let server := Server.listen (← now) service (address.host ++ ":" ++ toString address.port)
    let server ← settle paths (server.accept (← now) "standard input") files
    let server ← serve paths server
    let before := server.service.files
    let host := Logger.finish standardOutlets (server.stop (← now)).service.log
    printHost host
    writeBack before host.files paths
    return 0

end KeyValueService.Main

open KeyValueService in
/-- Does what the command line asks for. -/
def main (arguments : List String) : IO UInt32 := do
  match Invocation.read arguments with
  | .usage =>
    (Invocation.usageLines "keyforge_server").forM fun line => IO.eprintln line
    return 1
  | .newToken =>
    let bytes ← IO.getRandomBytes 16
    let token := tokenOfBytes (Vector.ofFn fun index => bytes[index.val]?.getD 0)
    (Invocation.tokenLines token).forM fun line => IO.println line
    return 0
  | .serve settingsPath => Main.runService settingsPath
