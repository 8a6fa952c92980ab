import FlameFold.Session

/-!
# Placing files

Before a file is written, its path is checked and the directories on the way to it
are made.
-/

namespace FlameFold.Output

/-- Why a file was not written. -/
inductive Failure where
  /-- The system refused to write it. -/
  | notWritten (cause : SystemFault)
  /-- The path cannot take a file. -/
  | badPath (reason : String)
  deriving DecidableEq, Repr

/-- The wording of the failure. -/
def Failure.message : Failure → String
  | .notWritten cause => "Failed to write file: " ++ cause.message
  | .badPath reason => "Invalid output path: " ++ reason

/-- The fault of the system behind the failure, where the failure keeps it. -/
def Failure.cause? : Failure → Option SystemFault
  | .notWritten cause => some cause
  | .badPath _ => none

/-- Why a path cannot take a file. -/
inductive Misplacement where
  /-- There is no path. -/
  | empty
  /-- A directory stands there. -/
  | directory (p : Path)
  /-- The directory on the way to it cannot be made. -/
  | unmade (parent : Path) (cause : SystemFault)
  deriving DecidableEq, Repr

/-- The wording of the reason. -/
def Misplacement.reason : Misplacement → String
  | .empty => "Path is empty"
  | .directory p => "Path is a directory: " ++ p.text
  | .unmade parent cause =>
    "Cannot create directory " ++ parent.text ++ ": " ++ cause.message

/-- Make the directory that a file is to stand in, unless there is one. -/
def makeWay (p : Path) : Step (Except Misplacement Unit) := do
  match p.parent? with
  | none => return .ok ()
  | some parent =>
    if parent.text.isEmpty || (← Session.view (·.pathExists parent)) then return .ok ()
    else
      Session.note .debug .placing ("Creating parent directories: " ++ parent.text)
      let (made, fault?) ← Session.view (·.makeDirectories parent)
      Session.setFiles made
      match fault? with
      | some fault => return .error (.unmade parent fault)
      | none => return .ok ()

/-- Check that a file can be written at a path and make way for it. A file whose
extension is not the usual one is noted and accepted. -/
def place (p : Path) (extension : String) : Step (Except Misplacement Unit) := do
  if p.text.isEmpty then return .error .empty
  else if ← Session.view (·.isDirectory p) then return .error (.directory p)
  else
    if p.extension? ≠ some extension then
      Session.note .debug .placing
        ("Warning: File does not have ." ++ extension ++ " extension: " ++ p.text)
    makeWay p

/-- Place a file and write its content. -/
def save (p : Path) (extension : String) (content : List UInt8) : Step (Except Failure Unit) := do
  match ← place p extension with
  | .error misplacement => return .error (.badPath misplacement.reason)
  | .ok () =>
    match ← Session.write p content with
    | .error cause => return .error (.notWritten cause)
    | .ok () => return .ok ()

end FlameFold.Output
