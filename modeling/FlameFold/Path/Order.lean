import FlameFold.Path
import FlameFold.Text.Utf8

/-!
# The order of paths

Paths are put in order by their components: the root or the dot that a path starts with, and
the names after it. What says nothing in a path has no part in its order.
-/

namespace FlameFold.Path

/-- A part of a path that says something. -/
inductive Component where
  /-- The root. -/
  | root
  /-- The directory itself, at the start of a path. -/
  | here
  /-- The directory above. -/
  | above
  /-- A name, as bytes. -/
  | name (bytes : List UInt8)
  deriving DecidableEq, Repr

/-- What decides between two components: their kinds first, and then the bytes of two names. -/
def Component.rank : Component → List UInt8
  | .root => [0]
  | .here => [1]
  | .above => [2]
  | .name bytes => 3 :: bytes

/-- The component that a path starts with, if any, by the text that it starts from. -/
def startComponents (start : List Char) : List Component :=
  if start == ['/'] then [.root] else if start == here then [.here] else []

/-- The component that a piece is, if it says something. -/
def component? (piece : List Char) : Option Component :=
  if isIdle piece then none
  else if piece == above then some .above
  else some (.name (piece.flatMap String.utf8EncodeChar))

/-- The parts of a path that say something. -/
def components (p : Path) : List Component :=
  let (start, body) := p.head
  startComponents start ++ (body.splitOn '/').filterMap component?

/-- What decides between two paths: their components, from the first one on. -/
def rank (p : Path) : List (List UInt8) :=
  p.components.map Component.rank

end FlameFold.Path
