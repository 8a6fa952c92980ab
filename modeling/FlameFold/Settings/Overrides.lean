import FlameFold.Session
import FlameFold.Settings.Document

/-!
# Settings in layers

The standard settings lie under those of a file, and these under the ones given for a
single run. The list of recordings is replaced as a whole.
-/

namespace FlameFold.Settings

/-- Why there are no settings, or none that a run can start with. -/
inductive Failure where
  /-- The renderer script is not there. -/
  | rendererMissing (script : Path)
  /-- The settings make no meaningful run. -/
  | invalid (reason : String)
  /-- The settings file could not be read. -/
  | unreadable (p : Path) (cause : SystemFault)
  /-- The settings file gives no settings. -/
  | malformed (fault : DocumentFault)
  deriving DecidableEq, Repr

/-- The wording of the failure. -/
def Failure.message : Failure → String
  | .rendererMissing script => "FlameGraph script not found at " ++ script.text
  | .invalid reason => "Invalid configuration: " ++ reason
  | .unreadable p cause => "Failed to read config file " ++ p.text ++ ": " ++ cause.message
  | .malformed fault => "Failed to parse config file: " ++ fault.message

/-- The fault of the system behind the failure. -/
def Failure.cause? : Failure → Option SystemFault
  | .unreadable _ cause => some cause
  | _ => none

/-- Settings given for a single run. -/
structure Overrides where
  /-- The settings file. -/
  file : Option Path
  /-- In the place of `Settings.root`. -/
  root : Option Path
  /-- In the place of `Settings.outputDirectory`. -/
  outputDirectory : Option Path
  /-- In the place of `Settings.rendererScript`. -/
  rendererScript : Option Path
  /-- In the place of `Settings.dumpTool`. -/
  dumpTool : Option String
  /-- In the place of `Settings.event`. -/
  event : Option String
  /-- In the place of `Settings.stackDepth`. -/
  stackDepth : Option UInt32
  /-- In the place of `Settings.title`. -/
  title : Option String
  /-- In the place of `Settings.timeoutSeconds`. -/
  timeoutSeconds : Option UInt64
  /-- In the place of `Settings.recordings`, unless there are none. -/
  recordings : List Recording
  deriving DecidableEq, Repr

/-- The overrides that change nothing. -/
def Overrides.none : Overrides :=
  ⟨.none, .none, .none, .none, .none, .none, .none, .none, .none, []⟩

/-- Settings with overrides laid over them. -/
def overlay (settings : Settings) (overrides : Overrides) : Settings where
  root := overrides.root.getD settings.root
  outputDirectory := overrides.outputDirectory.or settings.outputDirectory
  rendererScript := overrides.rendererScript.getD settings.rendererScript
  dumpTool := overrides.dumpTool.getD settings.dumpTool
  event := overrides.event.getD settings.event
  stackDepth := overrides.stackDepth.getD settings.stackDepth
  title := overrides.title.getD settings.title
  timeoutSeconds := overrides.timeoutSeconds.or settings.timeoutSeconds
  recordings := if overrides.recordings.isEmpty then settings.recordings else overrides.recordings

/-- Read settings from a file. -/
def load (p : Path) : Step (Except Failure Settings) := do
  Session.note .debug .settings ("Loading config from " ++ p.text)
  match ← Session.view (·.readText p) with
  | .error cause => return .error (.unreadable p cause)
  | .ok text => return (parse text).mapError .malformed

/-- The settings of a run: the standard ones, or those of the settings file, with the
overrides laid over them. -/
def Overrides.effective (overrides : Overrides) : Step (Except Failure Settings) := do
  match overrides.file with
  | .none => return .ok (standard.overlay overrides)
  | some p =>
    match ← load p with
    | .error failure => return .error failure
    | .ok settings => return .ok (settings.overlay overrides)

end FlameFold.Settings
