import FlameFold.Log
import FlameFold.Stack.CountTable
import FlameFold.Stack.LineKind
import FlameFold.Text.Lines

/-!
# Folding a dump

A folder takes the lines of a dump one at a time. It collects the frames of the
current sample and counts the sample when a line ends it. A sample that no line
ends is not counted; its frames are reported as pending.
-/

namespace FlameFold.Stack

/-- What has been read of the current sample. -/
inductive Sample where
  /-- No frame has been read. -/
  | idle
  /-- The frames read so far; the last one read, nearest to the root, is first. -/
  | accumulating (frames : List String)
  deriving DecidableEq, Repr

/-- The number of frames read of the current sample. -/
def Sample.depth : Sample → Nat
  | .idle => 0
  | .accumulating frames => frames.length

/-- The signature of a stack whose frames are listed from the root to the leaf. -/
def signature (frames : List String) : String :=
  ";".intercalate frames

/-- A folder between two lines of a dump. -/
structure Folder where
  /-- The name of the sampled event; a line that begins with it ends a sample. -/
  event : String
  /-- The current sample. -/
  sample : Sample
  /-- The samples counted so far. -/
  table : CountTable

/-- What a whole dump folds to. -/
structure Folded where
  /-- The counted samples. -/
  table : CountTable
  /-- The number of frames after the last line that ends a sample. -/
  pending : Nat

namespace Folder

/-- A folder that has read nothing. -/
def new (event : String) : Folder := ⟨event, .idle, .empty⟩

/-- Read one line. -/
def feedLine (folder : Folder) (line : String) : Folder :=
  match LineKind.ofLine folder.event line, folder.sample with
  | .terminator, .idle => folder
  | .terminator, .accumulating frames =>
    { folder with sample := .idle, table := folder.table.increment (signature frames) }
  | .ignored, _ => folder
  | .frame frame, .idle => { folder with sample := .accumulating [frame] }
  | .frame frame, .accumulating frames =>
    { folder with sample := .accumulating (frame :: frames) }

/-- Read all pieces of a text between newlines. A newline at the end gives one
last empty line, which ends a sample like any other. -/
def feed (folder : Folder) (text : String) : Folder :=
  (Text.pieces text).foldl feedLine folder

/-- Read no more; the current sample is dropped. -/
def finish (folder : Folder) : Folded := ⟨folder.table, folder.sample.depth⟩

end Folder

/-- Fold a whole dump. -/
def fold (text event : String) : Folded :=
  ((Folder.new event).feed text).finish

/-- The records written when folding ends. -/
def Folded.records (folded : Folded) : List Log.Record :=
  (if folded.pending > 0 then
    [⟨.debug, .folding,
      "Dropping unterminated trailing stack (" ++ Nat.repr folded.pending ++ " frames)"⟩]
  else []) ++
  [⟨.debug, .folding,
    "Folded " ++ Nat.repr folded.table.totalSamples ++ " samples into " ++
      Nat.repr folded.table.size ++ " unique stacks"⟩]

end FlameFold.Stack
