import FlameFold.Output.Placement
import FlameFold.Recording
import FlameFold.Decimal.Rounding

/-!
# Flame graph files

A flame graph is written as the renderer printed it. The flame graphs of a directory
are the plain files with the ending of a flame graph, in the order of their names.
-/

namespace FlameFold.Output

/-- A number of bytes in units of 1024 with two places, a half going to the even one. -/
def kilobytes (size : Nat) : String :=
  Decimal.hundredths (Decimal.roundDiv (100 * size) 1024)

/-- Write a flame graph to a file. -/
def writeGraphic (content : List UInt8) (p : Path) : Step (Except Failure Unit) := do
  match ← save p "svg" content with
  | .error failure => return .error failure
  | .ok () =>
    Session.note .info .graphics
      ("  Created " ++ p.text ++ " (" ++ kilobytes content.length ++ " KB)")
    return .ok ()

/-- The name of an entry of a directory, as bytes and as text, if the entry is a flame graph:
its name has the ending of one, and its path leads to a plain file. -/
def graphicName? (fs : FileSystem) (directory : Path) (name : Name) : Option (Name × String) :=
  match Text.decode? name with
  | some text =>
    if Text.endsIn Recording.graphicEnding text && fs.isFile (directory.join ⟨text⟩) then
      some (name, text)
    else none
  | none => none

/-- The names of the flame graphs among the entries of a directory, by their bytes. -/
def graphicNames (fs : FileSystem) (directory : Path) (entries : List (Name × Node)) :
    List String :=
  ((entries.filterMap fun entry => graphicName? fs directory entry.1).mergeSort
    fun a b => a.1 ≤ b.1).map Prod.snd

/-- The flame graphs in a directory; none if there is no such directory. -/
def listGraphics (fs : FileSystem) (directory : Path) : Except SystemFault (List Path) :=
  if fs.isDirectory directory then do
    let place ← fs.locate directory
    let names := graphicNames fs directory (fs.entries place)
    return names.map fun name => directory.join ⟨name⟩
  else .ok []

end FlameFold.Output
