import FlameFold.Path.Raw
import FlameFold.Recording

/-!
# The files of a recording whose path is bytes

A recording may have a path that is no text. Its files are named by its stem, read as a text: what
is no text in it is replaced.
-/

namespace FlameFold.Recording

/-- The two files made for one recording, as the system takes their paths. -/
structure RawArtifacts where
  /-- The collapsed stacks. -/
  collapsed : RawPath
  /-- The flame graph. -/
  graphic : RawPath
  deriving DecidableEq, Repr

/-- The files made in `directory` for the recording at `path`: the text of its stem with an ending
of its own for each. -/
def RawArtifacts.of (directory path : RawPath) : RawArtifacts :=
  let stem := (path.fileStem?.map Text.decodeLossy).getD ""
  { collapsed := directory.join (.ofText (stem ++ collapsedEnding))
    graphic := directory.join (.ofText (stem ++ graphicEnding)) }

end FlameFold.Recording
