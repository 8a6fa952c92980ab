import FlameFold.Conversion.Outcome
import FlameFold.Dump
import FlameFold.Output.Collapsed
import FlameFold.Render
import FlameFold.Settings.Overrides
import FlameFold.Stack.Folder

/-!
# Converting recordings

Each recording is dumped, folded, written as collapsed stacks and rendered. A failure
ends the work on its own recording only; what is wrong with the settings ends the run
before any program is called.
-/

namespace FlameFold.Conversion

/-- Find the renderer script. -/
def findRenderer (settings : Settings) (files : FileSystem) : Except Settings.Failure Path :=
  let script := settings.rendererPath
  if files.isFile script then .ok script else .error (.rendererMissing script)

/-- Note why a recording could not be dumped. -/
def noteDumpFailure (tool : String) (failure : Dump.Failure) : Step Unit := do
  Session.note .warn .conversion
    ("  Error running " ++ tool ++ " command: " ++ failure.message)
  match failure with
  | .toolFailed _ written complaints =>
    Session.note .warn .conversion ("  stdout: " ++ Text.trim written)
    Session.note .warn .conversion ("  stderr: " ++ Text.trim complaints)
  | .notRun _ => return ()

/-- Write the collapsed stacks of a recording and render them. -/
def produce (runner : Runner) (renderer : Render.Renderer) (artifacts : Recording.Artifacts)
    (table : Stack.CountTable) : Step Outcome := do
  match ← Output.writeCollapsed table artifacts.collapsed with
  | .error failure =>
    Session.note .warn .conversion
      ("  Error writing " ++ artifacts.collapsed.text ++ ": " ++ failure.message)
    return .writeFailed failure.message
  | .ok _ =>
    let counts : Counts := ⟨table.size, table.totalSamples⟩
    match ← Render.render runner renderer artifacts.collapsed artifacts.graphic with
    | .ok () => return .rendered artifacts counts
    | .error failure =>
      Session.note .warn .conversion ("  Error generating flame graph: " ++ failure.message)
      return .renderFailed artifacts counts failure.message

/-- What is asked of the dump tool for a recording. -/
def dumpRequest (settings : Settings) (path : Path) : Dump.Request where
  tool := settings.dumpTool
  recording := path
  event := settings.event
  stackDepth := settings.stackDepth
  limit := settings.timeout

/-- Convert the recording at a path. -/
def convertOne (settings : Settings) (runner : Runner) (renderer : Render.Renderer)
    (recording : Recording) (path : Path) : Step Outcome := do
  if ← Session.view (·.pathExists path) then
    Session.note .info .conversion ("Processing " ++ recording.label ++ "...")
    match ← Dump.dump runner (dumpRequest settings path) with
    | .error failure =>
      noteDumpFailure settings.dumpTool failure
      return .dumpFailed failure.message
    | .ok text =>
      let folded := Stack.fold text settings.event
      Session.noteAll folded.records
      if folded.pending > 0 then
        Session.note .debug .conversion
          (recording.label ++ ": trailing stack of " ++ Nat.repr folded.pending ++
            " frames had no terminator and was not counted")
      produce runner renderer (.of settings.outputPath path) folded.table
  else
    Session.note .warn .conversion ("Warning: " ++ path.text ++ " not found, skipping...")
    return .skipped

/-- Convert recordings in turn. -/
def convertAll (settings : Settings) (runner : Runner) (renderer : Render.Renderer) :
    List Recording → Step (List Result)
  | [] => return []
  | recording :: rest => do
    let path := settings.recordingPath recording
    let outcome ← convertOne settings runner renderer recording path
    let results ← convertAll settings runner renderer rest
    return ⟨recording, path, outcome⟩ :: results

/-- The flame graphs in a directory; none if it cannot be listed. -/
def listGraphics (directory : Path) : Step (List Path) := do
  match ← Session.view (Output.listGraphics · directory) with
  | .ok graphics => return graphics
  | .error cause =>
    Session.note .warn .conversion
      ("Could not list " ++ directory.text ++ ": " ++ (Output.Failure.notWritten cause).message)
    return []

/-- The renderer as the settings call it. -/
def rendererOf (settings : Settings) (script : Path) : Render.Renderer :=
  ⟨script, settings.title, settings.timeout⟩

/-- Convert all recordings of the settings with a renderer script that is there. -/
def runWith (settings : Settings) (runner : Runner) (script : Path) : Step Summary := do
  Session.note .debug .conversion ("Using FlameGraph script at " ++ script.text)
  let results ← convertAll settings runner (rendererOf settings script) settings.recordings
  let graphics ← listGraphics settings.outputPath
  let summary : Summary := ⟨results, graphics⟩
  Session.print summary.announcement
  Session.note .info .conversion
    ("Rendered " ++ Nat.repr summary.renderedCount ++ "/" ++ Nat.repr results.length ++
      " recordings in " ++ (← Session.timeWaited).hundredthsText ++ "s")
  return summary

/-- Convert all recordings of the settings, if a run can start with them. -/
def run (settings : Settings) (runner : Runner) : Step (Except Settings.Failure Summary) := do
  match settings.validate with
  | .error shortcoming => return .error (.invalid shortcoming.reason)
  | .ok () =>
    match ← Session.view (findRenderer settings) with
    | .error failure => return .error failure
    | .ok script => return .ok (← runWith settings runner script)

end FlameFold.Conversion
