import FlameFold.Output.Placement
import FlameFold.Stack.CountTable

/-!
# Files of collapsed stacks

One line for each stack, the most frequent stack first: its signature, a space and
its count.
-/

namespace FlameFold.Output

/-- The entries that are written as lines, in the order of the file. -/
def writtenEntries (table : Stack.CountTable) : List Stack.Entry :=
  table.sorted.filter fun entry => !entry.signature.isEmpty

/-- The text of a table, each line closed by a newline. -/
def collapsedText (table : Stack.CountTable) : String :=
  String.join ((writtenEntries table).map fun entry => entry.line ++ "\n")

/-- Write a table to a file; gives the number of lines. -/
def writeCollapsed (table : Stack.CountTable) (p : Path) : Step (Except Failure Nat) := do
  match ← save p "txt" (Text.encode (collapsedText table)) with
  | .error failure => return .error failure
  | .ok () =>
    Session.note .info .collapsedFiles
      ("  Created " ++ p.text ++ " with " ++ Nat.repr table.size ++ " unique stacks")
    return .ok (writtenEntries table).length

end FlameFold.Output
