import FlameFold.Recording
import FlameFold.Duration

/-!
# Settings

What a run needs to know: where the recordings are, how the dump tool and the
renderer are called, and which recordings to convert.
-/

namespace FlameFold

/-- The settings of a run. -/
structure Settings where
  /-- The directory that relative paths are taken from. -/
  root : Path
  /-- Where files are written; without it, in the root directory. -/
  outputDirectory : Option Path
  /-- The script that renders flame graphs. -/
  rendererScript : Path
  /-- The program that dumps recordings. -/
  dumpTool : String
  /-- The name of the sampled event. -/
  event : String
  /-- The greatest depth of a dumped stack. -/
  stackDepth : UInt32
  /-- The title of the flame graphs. -/
  title : String
  /-- How many seconds each called program may run; without it, for ever. -/
  timeoutSeconds : Option UInt64
  /-- The recordings to convert, in order. -/
  recordings : List Recording
  deriving DecidableEq, Repr

namespace Settings

/-- The settings where nothing else is said. -/
def standard : Settings where
  root := ⟨"profiling-results"⟩
  outputDirectory := none
  rendererScript := ⟨"FlameGraph/flamegraph.pl"⟩
  dumpTool := "jfr"
  event := "jdk.ExecutionSample"
  stackDepth := 999
  title := "CPU Profile"
  timeoutSeconds := none
  recordings :=
    [⟨⟨"tfb-batch-update-database.jfr"⟩, "DatabaseExposedTransactionProvider"⟩,
     ⟨⟨"tfb-batch-update-jdbc.jfr"⟩, "JdbcTransactionExposedTransactionProvider"⟩]

/-- A path as it is taken from the root directory. -/
def resolve (settings : Settings) (p : Path) : Path := settings.root.join p

/-- The path of the renderer script. -/
def rendererPath (settings : Settings) : Path := settings.resolve settings.rendererScript

/-- The path of the directory that files are written to. -/
def outputPath (settings : Settings) : Path :=
  match settings.outputDirectory with
  | some directory => settings.resolve directory
  | none => settings.root

/-- The path of a recording. -/
def recordingPath (settings : Settings) (recording : Recording) : Path :=
  settings.resolve recording.file

/-- How long each called program may run. -/
def timeout (settings : Settings) : Option Duration :=
  settings.timeoutSeconds.map fun seconds => .ofSeconds seconds.toNat

/-- Why settings make no meaningful run. -/
inductive Shortcoming where
  /-- There is nothing to convert. -/
  | noRecordings
  /-- The event has no name. -/
  | blankEvent
  /-- No frame would be dumped. -/
  | zeroDepth
  /-- The flame graphs would have no title. -/
  | blankTitle
  /-- No dump tool is named. -/
  | blankDumpTool
  /-- No program could run at all. -/
  | zeroTimeout
  deriving DecidableEq, Repr

/-- The wording of the reason. -/
def Shortcoming.reason : Shortcoming → String
  | .noRecordings => "no recordings configured"
  | .blankEvent => "event type cannot be empty"
  | .zeroDepth => "stack depth must be greater than 0"
  | .blankTitle => "title cannot be empty"
  | .blankDumpTool => "dump tool cannot be empty"
  | .zeroTimeout => "timeout must be greater than 0"

/-- Refuse settings that make no meaningful run, for the first reason in this order. -/
def validate (settings : Settings) : Except Shortcoming Unit :=
  if settings.recordings.isEmpty then .error .noRecordings
  else if Text.isBlankText settings.event then .error .blankEvent
  else if settings.stackDepth = 0 then .error .zeroDepth
  else if Text.isBlankText settings.title then .error .blankTitle
  else if Text.isBlankText settings.dumpTool then .error .blankDumpTool
  else if settings.timeoutSeconds = some 0 then .error .zeroTimeout
  else .ok ()

end Settings

end FlameFold
