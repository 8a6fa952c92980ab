import FlameFold.CommandLine.Run

/-!
# What a run can reach

The paths that a run looks at, and the way back: the files that a run has left changed.
-/

namespace FlameFold

namespace FileSystem

/-- The location that a path would name if nothing on the way to it were missing. -/
def place (files : FileSystem) (p : Path) : Location :=
  (names p).foldl (fun place name =>
    if name = [] ∨ name = dot then place
    else if name = dots then place.tail
    else name :: place) (files.start p)

/-- Put directories at a location and above it where there is nothing. -/
def grow (files : FileSystem) : Location → FileSystem
  | [] => files
  | name :: above =>
    let grown := files.grow above
    if (grown.node? (name :: above)).isSome then grown else grown.put (name :: above) .directory

/-- Put a node at a location, and directories above it where there is nothing. -/
def plant (files : FileSystem) (place : Location) (node : Node) : FileSystem :=
  if place = [] then files else (files.grow place.tail).put place node

/-- The path of a location from the root. -/
def path (place : Location) : Path := ⟨"/" ++ "/".intercalate (place.reverse.map Text.decodeLossy)⟩

/-- The nodes that are not as they were before. -/
def changesSince (before after : FileSystem) : List (Location × Node) :=
  after.nodes.filter fun (place, node) => before.node? place != some node

end FileSystem

namespace CommandLine

/-- The paths that the options name. -/
def Options.paths (options : Options) : List Path :=
  options.overrides.file.toList ++ options.report.toList ++ options.dumpInput.toList ++
    options.foldedOutput.toList

/-- The paths that settings lead to. -/
def settingsPaths (settings : Settings) : List Path :=
  let recordings := settings.recordings.map settings.recordingPath
  let artifacts := recordings.flatMap fun p =>
    let made := Recording.Artifacts.of settings.outputPath p
    [made.collapsed, made.graphic]
  [settings.root, settings.outputPath, settings.rendererPath, ⟨settings.dumpTool⟩] ++
    recordings ++ artifacts

/-- The settings that options lead to, if they lead to any. -/
def Options.settings? (options : Options) (files : FileSystem) : Option Settings :=
  match options.overrides.effective.run (Session.start files) with
  | .ok (.ok settings) _ => some settings
  | _ => none

end CommandLine

end FlameFold
