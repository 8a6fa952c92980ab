import FlameFold.Recording

/-!
# Outcomes

What became of each recording in a run, and of the run as a whole.
-/

namespace FlameFold.Conversion

/-- What was counted in a dump. -/
structure Counts where
  /-- The number of distinct stacks. -/
  uniqueStacks : Nat
  /-- The number of samples. -/
  totalSamples : Nat
  deriving DecidableEq, Repr

/-- What became of one recording. -/
inductive Outcome where
  /-- Both files were written. -/
  | rendered (artifacts : Recording.Artifacts) (counts : Counts)
  /-- The recording is not there. -/
  | skipped
  /-- The recording could not be dumped, and nothing was written. -/
  | dumpFailed (error : String)
  /-- The collapsed stacks could not be written. -/
  | writeFailed (error : String)
  /-- The collapsed stacks were written, but not the flame graph. -/
  | renderFailed (artifacts : Recording.Artifacts) (counts : Counts) (error : String)
  deriving DecidableEq, Repr

/-- The name of an outcome. -/
def Outcome.name : Outcome → String
  | .rendered _ _ => "rendered"
  | .skipped => "skipped"
  | .dumpFailed _ => "dump_failed"
  | .writeFailed _ => "write_failed"
  | .renderFailed _ _ _ => "render_failed"

/-- Whether both files were written. -/
def Outcome.isRendered : Outcome → Bool
  | .rendered _ _ => true
  | _ => false

/-- What became of a recording that was asked for. -/
structure Result where
  /-- The recording. -/
  recording : Recording
  /-- The path at which it was looked for. -/
  path : Path
  /-- What became of it. -/
  outcome : Outcome
  deriving DecidableEq, Repr

/-- What became of a run. -/
structure Summary where
  /-- One result for each recording, in the order of the settings. -/
  results : List Result
  /-- The flame graphs in the output directory after the run. -/
  graphics : List Path
  deriving DecidableEq, Repr

/-- The number of recordings with both files written. -/
def Summary.renderedCount (summary : Summary) : Nat :=
  summary.results.countP fun result => result.outcome.isRendered

/-- The text that tells which flame graphs there are. -/
def Summary.announcement (summary : Summary) : String :=
  "\nDone! Flame graphs generated:\n" ++
    String.join (summary.graphics.map fun graphic => "  - " ++ graphic.text ++ "\n")

end FlameFold.Conversion
