import FlameFold.Text.Blank

/-!
# Paths

A path is a text in which slashes separate names. Two texts that name the same
place stay different paths: joining adds text and removes nothing. Empty pieces
and lone dots between slashes say nothing, except for a dot at the very start.
-/

namespace FlameFold

/-- A path, as it is written. -/
structure Path where
  /-- The text of the path. -/
  text : String
  deriving DecidableEq, Repr, Inhabited

namespace Path

/-- The piece that names the directory itself. -/
def here : List Char := ['.']

/-- The piece that names the directory above. -/
def above : List Char := ['.', '.']

/-- A piece that changes nothing: nothing between two slashes, or a lone dot. -/
def isIdle (piece : List Char) : Bool := piece == [] || piece == here

/-- Whether the path starts at the root. -/
def isAbsolute (p : Path) : Bool := p.text.toList.head? == some '/'

/-- The pieces between the slashes. -/
def pieces (p : Path) : List (List Char) := p.text.toList.splitOn '/'

/-- The path with `right` taken from the place that `left` names: an absolute
path replaces it, any other is added after a slash. -/
def join (left right : Path) : Path :=
  if right.isAbsolute then right
  else if left.text.isEmpty || left.text.toList.getLast? == some '/' then
    ⟨left.text ++ right.text⟩
  else ⟨left.text ++ "/" ++ right.text⟩

/-- The path spelled out, which it is. -/
def spell (p : Path) : Except Empty Path := .ok p

/-- A file name cut at its last dot: the stem, and the extension if there is one.
A dot at the start begins no extension. -/
def cutName (name : List Char) : List Char × Option (List Char) :=
  match name.reverse.span (· != '.') with
  | (_, []) => (name, none)
  | (_, [_]) => (name, none)
  | (extension, _ :: stem) => (stem.reverse, some extension.reverse)

/-- The last piece that says something. -/
def lastPiece? (p : Path) : Option (List Char) :=
  (p.pieces.reverse.dropWhile isIdle).head?

/-- The name of the file, if the path ends in a name. -/
def fileName? (p : Path) : Option (List Char) :=
  p.lastPiece?.filter (· != above)

/-- The file name without its last extension. -/
def fileStem? (p : Path) : Option String :=
  p.fileName?.map fun name => String.ofList (cutName name).1

/-- The last extension of the file name. -/
def extension? (p : Path) : Option String :=
  p.fileName?.bind fun name => (cutName name).2.map String.ofList

/-- Where the pieces that can be taken off begin: after the slash of an absolute
path, and after a dot at the very start. -/
def head (p : Path) : List Char × List Char :=
  match p.text.toList with
  | '/' :: rest => (['/'], rest)
  | ['.'] => (here, [])
  | '.' :: '/' :: rest => (here, '/' :: rest)
  | rest => ([], rest)

/-- The path that keeps the pieces given, listed from the last one. -/
def ofReversedPieces (start : List Char) (pieces : List (List Char)) : Path :=
  ⟨String.ofList (start ++ ['/'].intercalate pieces.reverse)⟩

/-- The path made of `start` and the pieces given, listed from the last one, and
the paths above it. -/
def climb (start : List Char) : List (List Char) → List Path
  | [] => [⟨String.ofList start⟩]
  | piece :: rest =>
    if isIdle piece then climb start rest
    else ofReversedPieces start (piece :: rest) :: climb start rest

/-- The path without idle pieces at its end, and the paths above it; the last one
is the root or the empty path. -/
def ancestors (p : Path) : List Path :=
  let (start, body) := p.head
  climb start (body.splitOn '/').reverse ++ if start == here then [⟨""⟩] else []

/-- The path of the directory that holds the last piece. -/
def parent? (p : Path) : Option Path := p.ancestors[1]?

end Path

end FlameFold
