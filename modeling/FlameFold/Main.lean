import FlameFold.CommandLine.Reach
import FlameFold.Machine.Runner
import FlameFold.Moment
import Std.Time.DateTime.Timestamp

/-!
# The program

Reads what a run can reach, runs the command line, and writes what has changed. Called
programs run on the machine of the library.
-/

namespace FlameFold.CommandLine

/-- The code of the system for a directory that is read as a file. -/
def directoryCode : UInt32 := 21

/-- What stands at a path of the system. -/
def readNode (p : Path) : IO (Option Node) := do
  try
    let content ← IO.FS.readBinFile p.text
    return some (.file content.toList true)
  catch
  | .inappropriateType _ code _ => return if code = directoryCode then some .directory else none
  | _ => return none

/-- Read what stands at some paths. -/
def readAll (files : FileSystem) (paths : List Path) : IO FileSystem :=
  paths.foldlM (fun files p => do
    let place := files.place p
    match ← readNode (FileSystem.path place) with
    | some node => return files.plant place node
    | none => return files) files

/-- Write a node to its path of the system. -/
def writeNode (place : Location) : Node → IO Unit
  | .directory => IO.FS.createDirAll (FileSystem.path place).text
  | .file content _ => do
    IO.FS.createDirAll (FileSystem.path place.tail).text
    IO.FS.writeBinFile (FileSystem.path place).text ⟨content.toArray⟩
  | .device _ => return ()

/-- The variables of the environment that a run asks for. -/
def readEnvironment : IO Environment := do
  let names := Level.program.keys.filterMap Key.environmentName? ++ [filterVariable]
  names.filterMapM fun name => do
    return (← IO.getEnv name).map fun value => (name, value)

/-- The most bytes that are read at a time. -/
def chunkSize : USize := 65536

/-- Read a stream to its end. -/
def readToEnd (stream : IO.FS.Stream) : IO (List UInt8) := do
  let mut read := ByteArray.empty
  repeat
    let chunk ← stream.read chunkSize
    if chunk.isEmpty then break
    read := read ++ chunk
  return read.toList

/-- The moment at which the program runs. -/
def readMoment : IO Moment := do
  let elapsed := (← Std.Time.Timestamp.now).toNanosecondsSinceUnixEpoch.val.toNat
  return ⟨elapsed / Duration.second, elapsed % Duration.second⟩

/-- Read what a request can reach. -/
def readReach (files : FileSystem) (request : Request) : IO FileSystem := do
  let files ← readAll files request.options.paths
  if request.level = .fold then return files
  match request.options.settings? files with
  | some settings => readAll files (settingsPaths settings)
  | none => return files

/-- Run the words of a command line; gives the exit code. -/
def execute (words : List String) : IO UInt32 := do
  let environment ← readEnvironment
  let here := (FileSystem.mk [] []).place ⟨(← IO.currentDir).toString⟩
  let bare := FileSystem.plant ⟨[], here⟩ here .directory
  let (files, input) ← match Request.parse environment words with
    | .error _ => pure (bare, [])
    | .ok request => do
      let wanted := request.options.dumpInput = some inputMark
      let input ← if wanted then readToEnd (← IO.getStdin) else pure []
      pure (← readReach bare request, input)
  let furnished := Machine.furnish files
  let now := (← readMoment).text
  let outcome := run ⟨environment, input, now, Machine.runner⟩ furnished words
  for (place, node) in furnished.changesSince outcome.files do
    writeNode place node
  (← IO.getStdout).write ⟨outcome.printed.toArray⟩
  (← IO.getStderr).write ⟨outcome.complaints.toArray⟩
  return UInt32.ofNat outcome.code

end FlameFold.CommandLine

/-- Run the program. -/
def main (words : List String) : IO UInt32 := FlameFold.CommandLine.execute words
