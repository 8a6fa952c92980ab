import FlameFold.Text.Blank

/-!
# Lines of a dump

A dump lists the frames of each sample one per line. Blank lines, runs of dashes
and event headers stand between samples; list markers, labels, assignments and
the word `null` are no frames and end nothing.
-/

namespace FlameFold.Stack

/-- What a line of a dump means. -/
inductive LineKind where
  /-- The line ends the sample before it. -/
  | terminator
  /-- The line says nothing about frames. -/
  | ignored
  /-- The line is a frame. -/
  | frame (text : String)
  deriving DecidableEq, Repr

/-- What a trimmed line means when `event` is the name of the sampled event. A
line that ends a sample is never ignored, whatever else it looks like. -/
def LineKind.ofTrimmed (event line : String) : LineKind :=
  if line.isEmpty || Text.beginsWith "---" line ||
      (!event.isEmpty && Text.beginsWith event line) then .terminator
  else if Text.beginsWith "- " line || Text.beginsWith "stackTrace:" line ||
      Text.beginsWith "=" line || line == "null" then .ignored
  else .frame line

/-- What a line means, with or without white space around it. -/
def LineKind.ofLine (event line : String) : LineKind :=
  ofTrimmed event (Text.trim line)

end FlameFold.Stack
