import FlameFold.Path
import FlameFold.Conversion.Outcome

/-!
# Run reports

A report says what became of each recording of a run, for programs that pick up the
files. It is written as JSON. Its paths are of whatever kind the one who makes it has; for them to
be written, each has to be spelled out as a text.
-/

namespace FlameFold

namespace Report

/-- What a report says of one recording, by paths of a kind. -/
structure Entry (π : Type) where
  /-- The label of the recording. -/
  label : String
  /-- The path of the recording. -/
  recording : π
  /-- The name of what became of it. -/
  outcome : String
  /-- The number of distinct stacks. -/
  uniqueStacks : Option UInt64
  /-- The number of samples. -/
  totalSamples : Option UInt64
  /-- The file of collapsed stacks. -/
  collapsed : Option π
  /-- The flame graph. -/
  graphic : Option π
  /-- What went wrong. -/
  error : Option String
  deriving DecidableEq, Repr

end Report

/-- A report on a run, by paths of a kind. -/
structure Report (π : Type) where
  /-- The version of the format. -/
  version : String
  /-- When the report was made. -/
  generatedAt : String
  /-- One entry for each recording, in the order of the settings. -/
  recordings : List (Report.Entry π)
  /-- The flame graphs in the output directory after the run. -/
  graphics : List π
  deriving DecidableEq, Repr

namespace Report

/-- The version of the format that is written. -/
def currentVersion : String := "1.0.0"

/-- The entry for a result. -/
def Entry.ofResult (result : Conversion.Result) : Entry Path :=
  let blank : Entry Path :=
    ⟨result.recording.label, result.path, result.outcome.name, none, none, none, none, none⟩
  let counted (counts : Conversion.Counts) : Entry Path :=
    { blank with
      uniqueStacks := some (UInt64.ofNat counts.uniqueStacks)
      totalSamples := some (UInt64.ofNat counts.totalSamples) }
  match result.outcome with
  | .rendered artifacts counts =>
    { counted counts with
      collapsed := some artifacts.collapsed
      graphic := some artifacts.graphic }
  | .renderFailed artifacts counts error =>
    { counted counts with
      collapsed := some artifacts.collapsed
      error := some error }
  | .dumpFailed error => { blank with error := some error }
  | .writeFailed error => { blank with error := some error }
  | .skipped => blank

/-- The report on a run, made at a given time. -/
def ofSummary (generatedAt : String) (summary : Conversion.Summary) : Report Path where
  version := currentVersion
  generatedAt := generatedAt
  recordings := summary.results.map Entry.ofResult
  graphics := summary.graphics

variable {π ε : Type}

/-- An entry with its paths spelled out, or what is wrong with the first one that cannot be. -/
def Entry.spelled (spell : π → Except ε Path) (entry : Entry π) : Except ε (Entry Path) := do
  let recording ← spell entry.recording
  let collapsed ← entry.collapsed.mapM spell
  let graphic ← entry.graphic.mapM spell
  return { entry with recording, collapsed, graphic }

/-- A report with its paths spelled out, or what is wrong with the first one that cannot be. -/
def spelled (spell : π → Except ε Path) (report : Report π) : Except ε (Report Path) := do
  let recordings ← report.recordings.mapM (Entry.spelled spell)
  let graphics ← report.graphics.mapM spell
  return { report with recordings, graphics }

end Report

end FlameFold
