import FlameFold.Path
import FlameFold.FileSystem.Basic

/-!
# Paths as bytes

The system takes any bytes for a path, also such as are no text. A slash and a dot are one byte
each and no byte of another character, so a path of bytes is cut into names as a text is cut that
has a character for each byte.
-/

namespace FlameFold

/-- A path, as the system takes it. -/
structure RawPath where
  /-- The bytes of the path. -/
  bytes : List UInt8
  deriving DecidableEq, Repr, Inhabited

namespace RawPath

/-- The path with the bytes of a text. -/
def ofText (text : String) : RawPath := ⟨Text.encode text⟩

/-- The character with the number of a byte. -/
def glyph (b : UInt8) : Char := Char.ofNat b.toNat

/-- The byte with the number of a character. -/
def byte (c : Char) : UInt8 := UInt8.ofNat c.toNat

/-- The path with a character for each byte. -/
def spelled (p : RawPath) : Path := ⟨String.ofList (p.bytes.map glyph)⟩

/-- The path with a byte for each character. -/
def ofSpelled (p : Path) : RawPath := ⟨p.text.toList.map byte⟩

/-- The path with `right` taken from the place that `left` names. -/
def join (left right : RawPath) : RawPath := ofSpelled (left.spelled.join right.spelled)

/-- The names that a path lists, empty ones included. -/
def names (p : RawPath) : List Name := p.spelled.pieces.map (·.map byte)

/-- The name of the file, if the path ends in a name. -/
def fileName? (p : RawPath) : Option Name := p.spelled.fileName?.map (·.map byte)

/-- The file name without its last extension. -/
def fileStem? (p : RawPath) : Option Name :=
  p.spelled.fileStem?.map fun stem => stem.toList.map byte

/-- Where a path starts. -/
def start (p : RawPath) (fs : FileSystem) : Location :=
  if p.spelled.isAbsolute then [] else fs.here

/-- What is wrong with a path that has to be spelled out. -/
inductive Fault where
  /-- Its bytes are no text. -/
  | noText
  deriving DecidableEq, Repr

/-- The wording of the fault. -/
def Fault.message : Fault → String
  | .noText => "path contains invalid UTF-8 characters"

/-- The path spelled out as a text. -/
def spell (p : RawPath) : Except Fault Path :=
  match Text.decode? p.bytes with
  | some text => .ok ⟨text⟩
  | none => .error .noText

end RawPath

end FlameFold
