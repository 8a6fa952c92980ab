import FlameFold.Machine.Toolbox

/-!
# Finding programs

A program name with a slash is a path from the working directory; any other name is
looked for in the directories of the search path. A file that starts with a number sign
and an exclamation mark names the program that reads it.
-/

namespace FlameFold.Machine

/-- The directories in which programs are looked for, in order. -/
def searchPath : List Path := [⟨"/usr/local/bin"⟩, ⟨"/usr/bin"⟩, ⟨"/bin"⟩]

/-- The directories that hold the tools. -/
def toolPlaces : List Location :=
  [[Text.encode "bin", Text.encode "usr"], [Text.encode "bin"]]

/-- The fault of a file that no program can be made of. -/
def notRunnable : SystemFault := .numbered 8

/-- The path at which a program is looked for first, and those after it. -/
def candidates (program : String) : List Path :=
  if program.toList.contains '/' then [⟨program⟩]
  else searchPath.map fun directory => directory.join ⟨program⟩

/-- The bytes of the executable file at a path, and where it stands. -/
def executable (files : FileSystem) (p : Path) : Except SystemFault (Location × List UInt8) := do
  let place ← files.locate p
  match files.node? place with
  | some (.file content true) => .ok (place, content)
  | some _ => .error .notPermitted
  | none => .error .notFound

/-- The first of the paths that leads to an executable file. -/
def firstExecutable (files : FileSystem) :
    List Path → Except SystemFault (Path × Location × List UInt8)
  | [] => .error .notFound
  | p :: others =>
    match executable files p with
    | .ok (place, content) => .ok (p, place, content)
    | .error fault => if others.isEmpty then .error fault else firstExecutable files others

/-- Find the file of a program. -/
def lookup (files : FileSystem) (program : String) :
    Except SystemFault (Path × Location × List UInt8) :=
  if program.isEmpty then .error .notFound else firstExecutable files (candidates program)

/-- A tool that is to run. -/
structure Call where
  /-- The name of the tool. -/
  tool : String
  /-- The name under which it was called. -/
  self : String
  /-- Its arguments. -/
  arguments : List String

/-- Whether a character is a space or a tab. -/
def isSpace (c : Char) : Bool := c == ' ' || c == '\t'

/-- Characters without the spaces and tabs at both ends. -/
def stripped (cs : List Char) : List Char :=
  ((cs.dropWhile isSpace).reverse.dropWhile isSpace).reverse

/-- The program, and the argument if there is one, that the first line of a script
names. -/
def interpreter? (content : List UInt8) : Option (String × List String) :=
  match content with
  | 0x23 :: 0x21 :: rest =>
    let line := stripped (Text.decodeLossy (rest.takeWhile (· != 0x0A))).toList
    let (program, argument) := line.span (! isSpace ·)
    let argument := String.ofList (stripped argument)
    if program.isEmpty then none
    else some (String.ofList program, if argument.isEmpty then [] else [argument])
  | _ => none

/-- How often a script may name a script. -/
def scriptDepth : Nat := 5

/-- Find the tool behind the file of a program, through at most `fuel` scripts. -/
def callOf (files : FileSystem) (arguments : List String) :
    Nat → String → Path × Location × List UInt8 → Except SystemFault Call
  | fuel, self, (p, place, content) =>
    match place with
    | name :: above =>
      if toolPlaces.contains above ∧ content.isEmpty then
        .ok ⟨Text.decodeLossy name, self, arguments⟩
      else match fuel, interpreter? content with
        | fuel + 1, some (program, argument) => do
          let (place, content) ← executable files ⟨program⟩
          callOf files (argument ++ p.text :: arguments) fuel program (⟨program⟩, place, content)
        | 0, some _ => .error (.numbered 40)
        | _, none => .error notRunnable
    | [] => .error .notPermitted

/-- A word of this many bytes, or more, is refused as an argument. -/
def wordLimit : Nat := 131072

/-- The most bytes that all arguments of a program may take, with some room for each. -/
def wordsLimit : Nat := 2093056

/-- Whether words are too long for the arguments of a program. -/
def tooLong (words : List String) : Bool :=
  words.any (fun word => wordLimit ≤ word.utf8ByteSize) ||
    wordsLimit < words.foldl (fun sum word => sum + word.utf8ByteSize + 9) 0

/-- Find the tool that runs when a program is called. -/
def resolve (files : FileSystem) (program : String) (arguments : List String) :
    Except SystemFault Call := do
  if (program :: arguments).any fun word => word.toList.contains '\x00' then
    .error .zeroInArgument
  else
    let found ← lookup files program
    if tooLong (program :: arguments) then .error .argumentsTooLong
    else callOf files arguments scriptDepth program found

/-- The directories of a machine, each after the one it lies in. -/
def directories : List (List String) :=
  [["usr"], ["usr", "bin"], ["usr", "sbin"], ["usr", "lib"], ["usr", "share"], ["usr", "local"],
    ["usr", "local", "bin"], ["bin"], ["sbin"], ["lib"], ["lib64"], ["tmp"], ["dev"],
    ["dev", "fd"], ["dev", "shm"], ["dev", "pts"], ["etc"], ["var"], ["var", "tmp"],
    ["var", "log"], ["var", "lib"], ["home"], ["root"], ["opt"], ["mnt"], ["media"], ["srv"],
    ["run"], ["sys"], ["proc"], ["proc", "self"], ["proc", "self", "fd"]]

/-- The devices of a machine. -/
def devices : List (List String × Device) :=
  let streams : List (String × Device) := [("0", .input []), ("1", .output), ("2", .complaints)]
  [(["dev", "null"], .null), (["dev", "full"], .full), (["dev", "zero"], .endless),
    (["dev", "random"], .endless), (["dev", "urandom"], .endless), (["dev", "tty"], .terminal),
    (["dev", "stdin"], .input []), (["dev", "stdout"], .output),
    (["dev", "stderr"], .complaints)] ++
  streams.map (fun (name, device) => (["dev", "fd", name], device)) ++
  streams.map (fun (name, device) => (["proc", "self", "fd", name], device))

/-- Give a file system the tools, the usual directories and the devices of a machine. -/
def furnish (files : FileSystem) : FileSystem :=
  let place (names : List String) : Location := (names.map Text.encode).reverse
  let add (files : FileSystem) (place : Location) (node : Node) : FileSystem :=
    if (files.node? place).isSome then files else files.put place node
  let files := directories.foldl (fun files names => add files (place names) .directory) files
  let files := devices.foldl (fun files (names, device) =>
    add files (place names) (.device device)) files
  let tools := toolPlaces.flatMap fun above => toolNames.map fun tool => Text.encode tool :: above
  tools.foldl (fun files place => add files place (.file [] true)) files

end FlameFold.Machine
