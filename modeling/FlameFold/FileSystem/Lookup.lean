import FlameFold.FileSystem.Basic
import FlameFold.Path

/-!
# Finding what a path names

A path is followed name by name, from the root or from the working directory. Each
name but the last must lead to a directory, and so must every name before a slash.
-/

namespace FlameFold.FileSystem

/-- The names that a path lists, empty ones included. -/
def names (p : Path) : List Name :=
  p.pieces.map fun piece => piece.flatMap String.utf8EncodeChar

/-- Refuse a text that cannot be a path at all. -/
def checkText (p : Path) : Except SystemFault Unit :=
  if p.text.toList.contains '\x00' then .error .zeroInPath
  else if p.text.isEmpty then .error .notFound
  else if pathLimit ≤ (Text.encode p.text).length then .error .nameTooLong
  else .ok ()

/-- Where a path starts. -/
def start (fs : FileSystem) (p : Path) : Location :=
  if p.isAbsolute then [] else fs.here

/-- Follow one name from a location. -/
def step (fs : FileSystem) (place : Location) (name : Name) : Except SystemFault Location :=
  match fs.node? place with
  | none => .error .notFound
  | some (.file _ _) | some (.device _) => .error .notADirectory
  | some .directory =>
    if name = [] ∨ name = dot then .ok place
    else if name = dots then .ok place.tail
    else if nameLimit < name.length then .error .nameTooLong
    else if (fs.node? (name :: place)).isSome then .ok (name :: place)
    else .error .notFound

/-- Follow names from a location. -/
def walk (fs : FileSystem) (place : Location) (names : List Name) : Except SystemFault Location :=
  names.foldlM fs.step place

/-- The location that a path names. -/
def locate (fs : FileSystem) (p : Path) : Except SystemFault Location := do
  checkText p
  fs.walk (fs.start p) (names p)

/-- What stands where a path leads. -/
def find? (fs : FileSystem) (p : Path) : Option Node :=
  match fs.locate p with
  | .ok place => fs.node? place
  | .error _ => none

/-- Whether a path leads anywhere. -/
def pathExists (fs : FileSystem) (p : Path) : Bool := (fs.find? p).isSome

/-- Whether a path leads to a directory. -/
def isDirectory (fs : FileSystem) (p : Path) : Bool :=
  match fs.find? p with
  | some .directory => true
  | _ => false

/-- Whether a path leads to a plain file. -/
def isFile (fs : FileSystem) (p : Path) : Bool :=
  match fs.find? p with
  | some (.file _ _) => true
  | _ => false

/-- The bytes of the file that a path names. -/
def read (fs : FileSystem) (p : Path) : Except SystemFault (List UInt8) := do
  let place ← fs.locate p
  match fs.node? place with
  | some (.file content _) => .ok content
  | some .directory => .error .isADirectory
  | some (.device device) => device.content
  | none => .error .notFound

/-- The text of the file that a path names. -/
def readText (fs : FileSystem) (p : Path) : Except SystemFault String := do
  let content ← fs.read p
  match Text.decode? content with
  | some text => .ok text
  | none => .error .notText

/-- The names in a directory, each with what stands there. -/
def entries (fs : FileSystem) (place : Location) : List (Name × Node) :=
  fs.nodes.filterMap fun (location, node) =>
    match location with
    | name :: above => if above = place then some (name, node) else none
    | [] => none

end FlameFold.FileSystem
