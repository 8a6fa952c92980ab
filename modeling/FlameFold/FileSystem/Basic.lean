import FlameFold.Text.Utf8
import FlameFold.SystemFault

/-!
# Files and directories

A file system holds plain files, directories and devices at locations. A location lists
names from the nearest one up to the root; the root is always a directory.
-/

namespace FlameFold

/-- The name of a file or directory, as bytes. -/
abbrev Name := List UInt8

/-- A place in the file system: the names from the nearest one up to the root. -/
abbrev Location := List Name

/-- A file that stands for something other than its content. -/
inductive Device where
  /-- It is empty and takes everything. -/
  | null
  /-- It has zeros without end, and no room. -/
  | full
  /-- It has bytes without end, and takes everything. -/
  | endless
  /-- A terminal, and there is none. -/
  | terminal
  /-- The input of the program. -/
  | input (content : List UInt8)
  /-- The output of the program. -/
  | output
  /-- The complaints of the program. -/
  | complaints
  deriving DecidableEq, Repr

namespace Device

/-- The bytes that can be read from a device to its end. -/
def content : Device → Except SystemFault (List UInt8)
  | .input content => .ok content
  | .null | .output | .complaints => .ok []
  | .terminal => .error .noDevice
  | .full | .endless => .error .noMemory

/-- Whether a device takes some bytes. -/
def accept (content : List UInt8) : Device → Except SystemFault Unit
  | .full => if content.isEmpty then .ok () else .error .noRoom
  | .terminal => .error .noDevice
  | _ => .ok ()

end Device

/-- What stands at a location. -/
inductive Node where
  /-- A plain file with its bytes, and whether it may be executed. -/
  | file (content : List UInt8) (executable : Bool)
  /-- A directory. -/
  | directory
  /-- A device. -/
  | device (device : Device)
  deriving DecidableEq, Repr

/-- The files and directories, and the directory that relative paths start from. -/
structure FileSystem where
  /-- What stands at each location; the first entry of a location counts. -/
  nodes : List (Location × Node)
  /-- The working directory. -/
  here : Location

namespace FileSystem

/-- What stands at a location. -/
def node? (fs : FileSystem) (place : Location) : Option Node :=
  if place = [] then some .directory else fs.nodes.lookup place

/-- Put a node at a location, in the place of what stood there. -/
def put (fs : FileSystem) (place : Location) (node : Node) : FileSystem :=
  if (fs.nodes.lookup place).isSome then
    { fs with nodes := fs.nodes.map fun entry => if entry.1 = place then (place, node) else entry }
  else { fs with nodes := fs.nodes ++ [(place, node)] }

/-- The name that says the directory itself. -/
def dot : Name := [0x2E]

/-- The name that says the directory above. -/
def dots : Name := [0x2E, 0x2E]

/-- The most bytes a name may have. -/
def nameLimit : Nat := 255

/-- A path of this many bytes, or more, is refused. -/
def pathLimit : Nat := 4096

end FileSystem

end FlameFold
