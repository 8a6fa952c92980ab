import FlameFold.FileSystem.Lookup

/-!
# Making files and directories

Writing a file replaces all of its content; a device stays what it is. A directory is made
only where nothing stands; making all directories on the way makes the missing ones from the
top down, and those made before a failure remain.
-/

namespace FlameFold.FileSystem

/-- Where the last name of a path would stand. -/
inductive Slot where
  /-- The path ends in a name that always stands for a directory: the root, the
  directory itself or the one above. -/
  | standing
  /-- The path ends in a name of its own; a slash may follow it. -/
  | named (directory : Location) (name : Name) (slashed : Bool)
  deriving DecidableEq, Repr

/-- Follow a path up to its last name, and refuse it where that would not stand in a
directory. -/
def slot (fs : FileSystem) (p : Path) : Except SystemFault Slot := do
  checkText p
  match (names p).reverse.dropWhile (· = []) with
  | [] => .ok .standing
  | last :: above =>
    let place ← fs.walk (fs.start p) above.reverse
    if last = dot ∨ last = dots then
      let _ ← fs.step place last
      .ok .standing
    else
      let _ ← fs.step place dot
      .ok (.named place last ((names p).getLast? = some []))

/-- Replace the content of a file, or make the file. -/
def write (fs : FileSystem) (p : Path) (content : List UInt8) : Except SystemFault FileSystem := do
  match ← fs.slot p with
  | .standing => .error .isADirectory
  | .named directory name slashed =>
    if slashed then .error .isADirectory
    else if nameLimit < name.length then .error .nameTooLong
    else match fs.node? (name :: directory) with
      | some .directory => .error .isADirectory
      | some (.file _ executable) => .ok (fs.put (name :: directory) (.file content executable))
      | some (.device device) => do
        device.accept content
        .ok fs
      | none => .ok (fs.put (name :: directory) (.file content false))

/-- Make a directory where nothing stands. -/
def makeDirectory (fs : FileSystem) (p : Path) : Except SystemFault FileSystem := do
  match ← fs.slot p with
  | .standing => .error .alreadyThere
  | .named directory name _ =>
    if nameLimit < name.length then .error .nameTooLong
    else if (fs.node? (name :: directory)).isSome then .error .alreadyThere
    else .ok (fs.put (name :: directory) .directory)

/-- Make a directory, or find that it is there. -/
def settle (fs : FileSystem) (p : Path) : FileSystem × Option SystemFault :=
  match fs.makeDirectory p with
  | .ok made => (made, none)
  | .error fault => if fs.isDirectory p then (fs, none) else (fs, some fault)

/-- Make the first of the paths a directory; where it has no place yet, make the
ones after it first. Each path lies in the one that follows it. -/
def makeFrom (fs : FileSystem) : List Path → FileSystem × Option SystemFault
  | [] => (fs, none)
  | p :: above =>
    if p.text.isEmpty then (fs, none)
    else match fs.settle p with
      | (_, some fault) =>
        if fault = .notFound then
          match fs.makeFrom above with
          | (made, none) => made.settle p
          | failed => failed
        else (fs, some fault)
      | done => done

/-- Make a directory and all directories on the way to it. -/
def makeDirectories (fs : FileSystem) (p : Path) : FileSystem × Option SystemFault :=
  fs.makeFrom p.ancestors

end FlameFold.FileSystem
