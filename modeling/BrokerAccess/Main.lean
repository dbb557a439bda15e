import BrokerAccess.Files.Difference
import BrokerAccess.PasswordTool
import BrokerAccess.Service
import BrokerAccess.Service.LogFilter
import Std.Async.Signal
import Std.Time.Format
import Std.Time.Zoned

/-!
# The programs

The two programs of this library in one executable: the password generator when it is
called `password-gen`, and otherwise the service. Nothing is decided here. A look at the
disk gives a tree, the library says what becomes of it, and the difference is written
back.
-/

namespace BrokerAccess.Program

open Files (Entry Time Tree)
open Std.Time (DateTime PlainDateTime TimeZone Timestamp)

/-- Stop for a reason that the command line gives. -/
def halt (reason : CommandLine.Halt) : IO UInt32 := do
  if reason = .usage then IO.eprintln "error: invalid command line"
  return reason.code.toUInt32

/-- Numbers to draw a salt with. -/
def drawnNumbers : IO (List Nat) := do
  let bytes ← IO.getRandomBytes (8 * PasswordTool.saltLength).toUSize
  let octets := bytes.toList
  return (List.range PasswordTool.saltLength).map fun i =>
    ((octets.drop (8 * i)).take 8).foldl (fun n b => n * 256 + b.toNat) 0

/-- The password generator. -/
def generate (arguments : List String) : IO UInt32 := do
  match PasswordTool.read arguments with
  | .error reason => halt reason
  | .ok request =>
    match PasswordTool.output request (PasswordTool.drawnSalt (← drawnNumbers)) with
    | .error error =>
      IO.eprintln ("Error: " ++ error.message)
      return 1
    | .ok text =>
      IO.print text
      return 0

/-- The present, as archived files are stamped and named. -/
def present : IO ArchiveTime := do
  let label := (← PlainDateTime.now).format "uuuuMMdd-HH-mm-ss"
  return ⟨(← Timestamp.now).toNanosecondsSinceUnixEpoch.val, label⟩

/-- The name of a place on the disk. -/
def diskName (place : List String) : String := "/" ++ "/".intercalate place

/-- What stands at a place on the disk. -/
def lookAt (place : List String) : IO (Option Entry) := do
  let here := (← IO.currentDir) / diskName place
  if ← here.pathExists then
    let modified := (← here.metadata).modified
    let time : Time := modified.sec * 1000000000 + modified.nsec.toNat
    if ← here.isDir then return some (.folder time)
    return some (.file (← IO.FS.readBinFile here).toList time)
  return none

/-- The part of the disk that a service looks at. -/
def snapshot (home : Files.Path) (moment : ArchiveTime) : IO Tree := do
  let mut t : Tree := {}
  for path in Service.paths home moment do
    let mut place := []
    for step in path.steps do
      place := Files.stepFrom place step
      if place ≠ [] && (t.find? place).isNone then
        if let some entry ← lookAt place then t := t.put place entry
  return t

/-- Make the disk agree with a tree. -/
def writeBack (old new : Tree) : IO Unit := do
  let working ← IO.currentDir
  for place in old.gone new do
    IO.FS.removeFile (working / diskName place)
  for (place, entry) in old.fresh new do
    match entry with
    | .folder _ => IO.FS.createDirAll (working / diskName place)
    | .file content _ =>
      IO.FS.writeBinFile (working / diskName place) (ByteArray.mk content.toArray)

/-- Print the log lines of a journal. -/
def log (filter : LogFilter) (journal : Journal) : IO Unit := do
  let output ← IO.getStdout
  for e in journal.events do
    if filter.shows e then
      let time := (DateTime.ofTimestampWithZone (← Timestamp.now) TimeZone.UTC).format
        "uuuu-MM-dd'T'HH:mm:ss.SSSSSS'Z'"
      let padding := if e.level.name.length < 5 then " " else ""
      output.putStrLn (time ++ " " ++ padding ++ e.line)
  output.flush

/-- Serve until a signal arrives. The disk is looked at again after every short sleep. -/
partial def serve (filter : LogFilter) (home : Files.Path) (stopped : IO (Option StopSignal))
    (last : Nat) (before : Tree) (service : Service) : IO Unit := do
  if let some signal ← stopped then
    log filter (service.stop signal)
  else
    IO.sleep 50
    let now ← IO.monoMsNow
    let moment ← present
    let tree ← snapshot home moment
    let (nudges, journal) := service.nudges before tree
    log filter journal
    let mut tree := tree
    let mut service := service
    for input in .elapse (now - last) :: nudges do
      let step := service.step moment input tree
      try writeBack tree step.tree catch error => IO.eprintln error.toString
      tree := step.tree
      service := step.service
      log filter step.journal
    serve filter home stopped now tree service

/-- A look at whether a signal has arrived. -/
def awaitStop : IO (IO (Option StopSignal)) := do
  let interrupt ← (← Std.Async.Signal.Waiter.mk .sigint false).wait
  let terminate ← (← Std.Async.Signal.Waiter.mk .sigterm false).wait
  return do
    if (← interrupt.getState) = .finished then return some .interrupt
    if (← terminate.getState) = .finished then return some .terminate
    return none

/-- The service. -/
def runService (arguments : List String) : IO UInt32 := do
  match Service.read arguments with
  | .error reason => halt reason
  | .ok given =>
    let working := Files.Path.within ⟨[], []⟩ (← IO.currentDir).toString
    let home := working.within given
    let filter := LogFilter.ofChoice (← IO.getEnv "RUST_LOG")
    let stopped ← awaitStop
    let moment ← present
    let tree ← snapshot home moment
    let now ← IO.monoMsNow
    let (service, journal) := Service.start working home (now / 1000) tree
    log filter journal
    serve filter home stopped now tree service
    return 0

end BrokerAccess.Program

/-- The program that the executable's name asks for. -/
def main (arguments : List String) : IO UInt32 := do
  if (← IO.appPath).fileStem = some "password-gen" then
    BrokerAccess.Program.generate arguments
  else BrokerAccess.Program.runService arguments
