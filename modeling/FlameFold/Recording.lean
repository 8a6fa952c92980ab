import FlameFold.Path

/-!
# Recordings

A recording to convert: its file and the label under which it is reported. On the
command line it is written `file=label`, or as the file alone.
-/

namespace FlameFold

/-- One recording to convert. -/
structure Recording where
  /-- The file of the recording, taken from the root directory. -/
  file : Path
  /-- The name shown for it. -/
  label : String
  deriving DecidableEq, Repr

namespace Recording

/-- Why a text names no recording. The text is kept. -/
inductive SpecError where
  /-- No file is left of the text. -/
  | fileMissing (spec : String)
  /-- No label is given, and the file has no stem to take it from. -/
  | labelMissing (spec : String)
  deriving DecidableEq, Repr

/-- The wording of the error. -/
def SpecError.message : SpecError → String
  | .fileMissing spec => "recording file missing in '" ++ spec ++ "'"
  | .labelMissing spec => "recording label missing in '" ++ spec ++ "'"

/-- The trimmed file and label that a text gives. What follows the first equals
sign is the label; without one, the label is the stem of the file. -/
def split (spec : String) : String × String :=
  match spec.toList.span (· != '=') with
  | (_, []) =>
    let file := Text.trim spec
    (file, ((Path.mk file).fileStem?).getD "")
  | (file, _ :: label) =>
    (String.ofList (Text.trimChars file), String.ofList (Text.trimChars label))

/-- Read a recording from the text `file` or `file=label`. -/
def ofSpec (spec : String) : Except SpecError Recording :=
  let (file, label) := split spec
  if file.isEmpty then .error (.fileMissing spec)
  else if label.isEmpty then .error (.labelMissing spec)
  else .ok ⟨⟨file⟩, label⟩

/-- The two files made for one recording. -/
structure Artifacts where
  /-- The collapsed stacks. -/
  collapsed : Path
  /-- The flame graph. -/
  graphic : Path
  deriving DecidableEq, Repr

/-- How the name of a file of collapsed stacks ends. -/
def collapsedEnding : String := "_collapsed.txt"

/-- How the name of a flame graph ends. -/
def graphicEnding : String := "_flamegraph.svg"

/-- The files made in `directory` for the recording at `path`: the stem of the
recording with an ending of its own for each. -/
def Artifacts.of (directory path : Path) : Artifacts :=
  let stem := path.fileStem?.getD ""
  { collapsed := directory.join ⟨stem ++ collapsedEnding⟩
    graphic := directory.join ⟨stem ++ graphicEnding⟩ }

end Recording

end FlameFold
