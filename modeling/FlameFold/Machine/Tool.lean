import FlameFold.Duration
import FlameFold.FileSystem.Change
import FlameFold.Text.Blank

/-!
# Tools

The programs that a machine comes with. A tool reads its arguments, its input and the
files, and leaves output, complaints and the input it did not read.
-/

namespace FlameFold.Machine

/-- How a program ended. -/
inductive Status where
  /-- It ended by itself, with an exit code. -/
  | exited (code : Nat)
  /-- A signal ended it. -/
  | killed (signal : Nat)
  /-- It does not end. -/
  | endless
  deriving DecidableEq, Repr

/-- What a program leaves behind. -/
structure Trace where
  /-- The files. -/
  files : FileSystem
  /-- The input that it did not read. -/
  rest : List UInt8
  /-- What it wrote. -/
  output : List UInt8
  /-- What it wrote as complaints. -/
  complaints : List UInt8
  /-- How it ended. -/
  status : Status
  /-- How many nanoseconds it slept. -/
  slept : Nat

namespace Tool

/-- The bytes of a line. -/
def lineBytes (text : String) : List UInt8 := Text.encode (text ++ "\n")

/-- A program that wrote some bytes and left its input alone. -/
def wrote (files : FileSystem) (input : List UInt8) (bytes : List UInt8) : Trace :=
  ⟨files, input, bytes, [], .exited 0, 0⟩

/-- A program that ended with a complaint. -/
def complained (files : FileSystem) (input : List UInt8) (code : Nat) (text : String) : Trace :=
  ⟨files, input, [], lineBytes text, .exited code, 0⟩

/-- How many bytes of a file without an end are taken at once. -/
def supply : Nat := 1048576

/-- Whether a file has no end. -/
def isEndless (files : FileSystem) (p : Path) : Bool :=
  match files.find? p with
  | some (.device .endless) | some (.device .full) => true
  | _ => false

/-- The bytes of a file, at least `wanted` of them where a file has no end. -/
def source (files : FileSystem) (wanted : Nat) (p : Path) : Except SystemFault (List UInt8) :=
  if isEndless files p then .ok (List.replicate wanted 0) else files.read p

/-- Whether a source is the input of the tool itself. -/
def isInput (files : FileSystem) (name : String) : Bool :=
  name = "-" || match files.find? ⟨name⟩ with
    | some (.device (.input _)) => true
    | _ => false

/-- The sum of what a tool does with each of its sources in turn: its input where a dash
or no source at all is named. `refusal` words the complaint about a source that cannot be
read. -/
def overSources (files : FileSystem) (input : List UInt8) (wanted : Nat)
    (refusal : String → SystemFault → String)
    (take : String → List UInt8 → List UInt8 × List UInt8) (sources : List String) : Trace :=
  let start : Trace := ⟨files, input, [], [], .exited 0, 0⟩
  let names := if sources.isEmpty then ["-"] else sources
  names.foldl (fun trace name =>
    if isInput files name then
      let (written, rest) := take name trace.rest
      { trace with output := trace.output ++ written, rest := rest }
    else match source files wanted ⟨name⟩ with
      | .ok bytes => { trace with output := trace.output ++ (take name bytes).1 }
      | .error fault => { trace with
          complaints := trace.complaints ++ lineBytes (refusal name fault)
          status := .exited 1 }) start

/-- The characters with the numbers of the bytes. -/
def byteChars (bytes : List UInt8) : List Char := bytes.map fun b => Char.ofNat b.toNat

/-- The bytes with the numbers of the characters. -/
def charBytes (chars : List Char) : List UInt8 := chars.map fun c => UInt8.ofNat c.toNat

/-- The characters with the numbers of the bytes of a text. -/
def textChars (text : String) : List Char := byteChars (Text.encode text)

/-- The lines of some bytes, and whether the last one is closed. -/
def linesOf (bytes : List UInt8) : List (List UInt8) × Bool :=
  let pieces := bytes.splitOn 0x0A
  if pieces.getLast? = some [] then (pieces.dropLast, true) else (pieces, false)

/-- Lines, each of them closed. -/
def closed (lines : List (List UInt8)) : List UInt8 := lines.flatMap (· ++ [0x0A])

/-- The sources with their bytes, and what a tool leaves that reads them all. -/
def gather (files : FileSystem) (input : List UInt8) (code : Nat)
    (refusal : String → SystemFault → String) (sources : List String) :
    List (String × List UInt8) × Trace :=
  let start : Trace := ⟨files, input, [], [], .exited 0, 0⟩
  let names := if sources.isEmpty then ["-"] else sources
  names.foldl (fun (found, trace) name =>
    if isInput files name then (found ++ [(name, trace.rest)], { trace with rest := [] })
    else match files.read ⟨name⟩ with
      | .ok bytes => (found ++ [(name, bytes)], trace)
      | .error fault => (found, { trace with
          complaints := trace.complaints ++ lineBytes (refusal name fault)
          status := .exited code })) ([], start)

/-- The complaint of a tool that names a source and its fault. -/
def plainRefusal (tool name : String) (fault : SystemFault) : String :=
  tool ++ ": " ++ name ++ ": " ++ fault.wording

/-- The complaint of a tool that says what it wanted to do. -/
def openRefusal (tool name : String) (fault : SystemFault) : String :=
  if fault = .isADirectory then tool ++ ": error reading '" ++ name ++ "': " ++ fault.wording
  else tool ++ ": cannot open '" ++ name ++ "' for reading: " ++ fault.wording

/-- The complaint of a tool that is called with too few words. -/
def complainedMissing (tool what : String) (files : FileSystem) (input : List UInt8) : Trace :=
  complained files input 1
    (tool ++ ": missing " ++ what ++ "\nTry '" ++ tool ++ " --help' for more information.")

/-- The output of a tool with a title above each of several sources. -/
def titled (sources : List String) (name : String) (written : List UInt8) : List UInt8 :=
  if sources.length < 2 then written
  else
    let shown := if name = "-" then "standard input" else name
    let gap := if sources.head? = some name then "" else "\n"
    Text.encode (gap ++ "==> " ++ shown ++ " <==\n") ++ written

/-- Whether a word is an option and not a lone dash. -/
def isOption (word : String) : Bool := Text.beginsWith "-" word && word != "-"

/-- Complain about an option that a tool does not have. -/
def refuseOption (tool : String) (files : FileSystem) (input : List UInt8) (word : String) :
    Trace :=
  let named :=
    if Text.beginsWith "--" word then "unrecognized option '" ++ word ++ "'"
    else "invalid option -- '" ++ String.ofList ((word.toList.drop 1).take 1) ++ "'"
  complained files input 1
    (tool ++ ": " ++ named ++ "\nTry '" ++ tool ++ " --help' for more information.")

/-- The options in one word, each with its argument, and the option whose argument is the
next word, if there is one; those of `taking` have an argument. -/
def cluster (taking : List Char) : List Char → List (Char × String) × Option Char
  | [] => ([], none)
  | c :: cs =>
    if taking.contains c then
      if cs.isEmpty then ([], some c) else ([(c, String.ofList cs)], none)
    else
      let (found, open?) := cluster taking cs
      ((c, "") :: found, open?)

/-- The options among some words, each with its argument, and the other words. -/
def options (taking : List Char) : List String → List (Char × String) × List String
  | [] => ([], [])
  | [word] =>
    if word = "--" then ([], [])
    else if isOption word then ((cluster taking (word.toList.drop 1)).1, [])
    else ([], [word])
  | word :: value :: rest =>
    if word = "--" then ([], value :: rest)
    else if isOption word then
      match cluster taking (word.toList.drop 1) with
      | (found, some c) =>
        let (more, words) := options taking rest
        (found ++ (c, value) :: more, words)
      | (found, none) =>
        let (more, words) := options taking (value :: rest)
        (found ++ more, words)
    else
      let (more, words) := options taking (value :: rest)
      (more, word :: words)

/-- The options in front of the first other word, each with its argument, and the words from
there on. -/
def frontOptions (taking : List Char) : List String → List (Char × String) × List String
  | [] => ([], [])
  | [word] =>
    if word = "--" then ([], [])
    else if isOption word then ((cluster taking (word.toList.drop 1)).1, [])
    else ([], [word])
  | word :: value :: rest =>
    if word = "--" then ([], value :: rest)
    else if isOption word then
      match cluster taking (word.toList.drop 1) with
      | (found, some c) =>
        let (more, words) := frontOptions taking rest
        (found ++ (c, value) :: more, words)
      | (found, none) =>
        let (more, words) := frontOptions taking (value :: rest)
        (found ++ more, words)
    else ([], word :: value :: rest)

/-- Complain about the first option that a tool does not have. -/
def refuseUnknown (tool : String) (code : Nat) (files : FileSystem) (input : List UInt8)
    (known : List Char) (given : List (Char × String)) : Option Trace :=
  (given.find? fun entry => !known.contains entry.1).map fun entry =>
    complained files input code (tool ++ ": invalid option -- '" ++ String.ofList [entry.1] ++
      "'\nTry '" ++ tool ++ " --help' for more information.")

/-- Copy the sources. -/
def cat (arguments : List String) (files : FileSystem) (input : List UInt8) : Trace :=
  match arguments.find? fun word => isOption word && word != "-u" && word != "--" with
  | some word => refuseOption "cat" files input word
  | none =>
    let sources := arguments.filter fun word => word != "-u" && word != "--"
    let trace := overSources files input supply (plainRefusal "cat") (fun _ bytes => (bytes, []))
      sources
    if sources.any fun name => isEndless files ⟨name⟩ then { trace with status := .endless }
    else trace

/-- The digits of a number at the front of a text, with the number. -/
def leadingNumber? (cs : List Char) : Option Nat :=
  let digits := cs.takeWhile Char.isDigit
  if digits.isEmpty ∨ digits.length < cs.length then none
  else some (digits.foldl (fun n c => n * 10 + (c.toNat - 48)) 0)

/-- The first lines of some bytes, and what is left when they are read in blocks. -/
def firstLines : Nat → List UInt8 → List UInt8
  | _, [] => []
  | 0, _ => []
  | n + 1, bytes =>
    let line := bytes.takeWhile (· != 0x0A)
    match bytes.drop line.length with
    | [] => line
    | _ :: rest => line ++ 0x0A :: firstLines n rest

/-- What `head` or `tail` is asked for. -/
structure Amount where
  /-- Whether bytes are counted, and not lines. -/
  ofBytes : Bool
  /-- How many. -/
  count : Nat
  /-- The sign before the number, if there is one. -/
  sign : Option Char

/-- A number of bytes or lines, with a sign if there is one. -/
def amountOf? (ofBytes : Bool) (cs : List Char) : Option Amount :=
  match cs with
  | '+' :: digits => (leadingNumber? digits).map fun n => ⟨ofBytes, n, some '+'⟩
  | '-' :: digits => (leadingNumber? digits).map fun n => ⟨ofBytes, n, some '-'⟩
  | digits => (leadingNumber? digits).map fun n => ⟨ofBytes, n, none⟩

/-- What `head` or `tail` is asked for, and where. -/
def amount : List String → Option (Amount × List String)
  | "-c" :: n :: sources => (amountOf? true n.toList).map fun amount => (amount, sources)
  | "-n" :: n :: sources => (amountOf? false n.toList).map fun amount => (amount, sources)
  | word :: sources =>
    match word.toList with
    | '-' :: 'c' :: n => (amountOf? true n).map fun amount => (amount, sources)
    | '-' :: 'n' :: n => (amountOf? false n).map fun amount => (amount, sources)
    | '-' :: c :: n => (amountOf? false (c :: n)).map fun amount => (amount, sources)
    | _ => some (⟨false, 10, none⟩, word :: sources)
  | [] => some (⟨false, 10, none⟩, [])

/-- The number of lines of some bytes; a last line that is not closed counts. -/
def lineCount (bytes : List UInt8) : Nat :=
  bytes.count 0x0A + if bytes.getLast?.all (· == 0x0A) then 0 else 1

/-- The last lines of some bytes. -/
def lastLines (n : Nat) (bytes : List UInt8) : List UInt8 :=
  bytes.drop (firstLines (lineCount bytes - n) bytes).length

/-- The number of bytes that a tool reads at a time. -/
def blockSize : Nat := 8192

/-- Copy the beginning of the sources; with a minus sign, all but their end. -/
def head (arguments : List String) (files : FileSystem) (input : List UInt8) : Trace :=
  match amount arguments with
  | none => complained files input 1 "head: invalid number"
  | some (⟨ofBytes, n, sign⟩, sources) =>
    let wanted := if ofBytes then n else 0
    let kept (bytes : List UInt8) : List UInt8 :=
      match ofBytes, sign with
      | true, some '-' => bytes.take (bytes.length - n)
      | true, _ => bytes.take n
      | false, some '-' => firstLines (lineCount bytes - n) bytes
      | false, _ => firstLines n bytes
    let passed (size : Nat) : Nat :=
      if ofBytes then size else (size + blockSize - 1) / blockSize * blockSize
    overSources files input wanted (openRefusal "head") (fun name bytes =>
      let written := kept bytes
      let left := if sign = some '-' then [] else bytes.drop (passed written.length)
      (titled sources name written, left)) sources

/-- Copy the end of the sources; with a plus sign, from a place on. -/
def tail (arguments : List String) (files : FileSystem) (input : List UInt8) : Trace :=
  match amount arguments with
  | none => complained files input 1 "tail: invalid number"
  | some (⟨ofBytes, n, sign⟩, sources) =>
    let kept (bytes : List UInt8) : List UInt8 :=
      match ofBytes, sign with
      | true, some '+' => bytes.drop (n - 1)
      | true, _ => bytes.drop (bytes.length - n)
      | false, some '+' => bytes.drop (firstLines (n - 1) bytes).length
      | false, _ => lastLines n bytes
    overSources files input (if ofBytes then n else 0) (openRefusal "tail")
      (fun name bytes => (titled sources name (kept bytes), [])) sources

/-- The number of words of some bytes. -/
def wordCount (bytes : List UInt8) : Nat :=
  let blank (b : UInt8) : Bool := b == 0x20 || (0x09 ≤ b && b ≤ 0x0D)
  (bytes.foldl (fun (count, inside) b =>
    if blank b then (count, false) else (if inside then count else count + 1, true)) (0, false)).1

/-- A number in a column. -/
def column (width : Nat) (n : Nat) : String :=
  let digits := Nat.repr n
  String.ofList (List.replicate (width - digits.length) ' ') ++ digits

/-- Count lines, words and bytes; of several sources also the sums. -/
def wc (arguments : List String) (files : FileSystem) (input : List UInt8) : Trace :=
  let letters := (arguments.filter isOption).flatMap fun word => word.toList.drop 1
  let sources := arguments.filter fun word => !isOption word
  match letters.find? fun c => !"clw".toList.contains c with
  | some c => refuseOption "wc" files input (String.ofList ['-', c])
  | none =>
    let shown (c : Char) : Bool := letters.isEmpty || letters.contains c
    let counts (bytes : List UInt8) : List Nat :=
      (if shown 'l' then [bytes.count 0x0A] else []) ++
      (if shown 'w' then [wordCount bytes] else []) ++
      (if shown 'c' then [bytes.length] else [])
    let all := (sources.map fun name => (source files 0 ⟨name⟩).toOption.getD []).flatten
    let width :=
      if sources.length < 2 ∧ (counts []).length = 1 then 0
      else if sources.isEmpty then 7
      else (Nat.repr all.length).length
    let line (name : String) (numbers : List Nat) : List UInt8 :=
      lineBytes (" ".intercalate (numbers.map (column width)) ++
        (if sources.isEmpty then "" else " " ++ name))
    let trace := overSources files input 0 (plainRefusal "wc")
      (fun name bytes => (line name (counts bytes), [])) sources
    if sources.length < 2 then trace
    else
      let each := sources.map fun name => counts ((source files 0 ⟨name⟩).toOption.getD [])
      let sums := each.foldl (List.zipWith (· + ·)) (counts [])
      { trace with output := trace.output ++ line "total" sums }

/-- A time span in seconds, with a fraction and a unit if they are given. -/
def span? (text : String) : Option Nat :=
  let (digits, unit) := text.toList.span fun c => c.isDigit || c == '.'
  let factor? := match unit with
    | [] | ['s'] => some 1
    | ['m'] => some 60
    | ['h'] => some 3600
    | ['d'] => some 86400
    | _ => none
  let (whole, point) := digits.span (· != '.')
  let places := (point.drop 1).take 9
  let value (cs : List Char) : Nat := cs.foldl (fun n c => n * 10 + (c.toNat - 48)) 0
  if digits.isEmpty ∨ (point.drop 1).contains '.' then none
  else factor?.map fun factor =>
    factor * (value whole * Duration.second + value places * Nat.pow 10 (9 - places.length))

/-- A program that does not end. -/
def neverEnding (files : FileSystem) (input : List UInt8) : Trace :=
  ⟨files, input, [], [], .endless, 0⟩

/-- Write a line again and again. -/
def yes (arguments : List String) (files : FileSystem) (input : List UInt8) : Trace :=
  let line := lineBytes (if arguments.isEmpty then "y" else " ".intercalate arguments)
  { neverEnding files input with
    output := (List.replicate (supply / line.length + 1) line).flatten }

/-- Do nothing for some time. -/
def sleep (arguments : List String) (files : FileSystem) (input : List UInt8) : Trace :=
  if arguments = ["infinity"] ∨ arguments = ["inf"] then neverEnding files input
  else match arguments.mapM span? with
  | some spans =>
    if spans.isEmpty then
      complainedMissing "sleep" "operand" files input
    else ⟨files, input, [], [], .exited 0, spans.foldl (· + ·) 0⟩
  | none =>
    let wrong := (arguments.find? fun word => (span? word).isNone).getD ""
    complained files input 1
      ("sleep: invalid time interval '" ++ wrong ++
        "'\nTry 'sleep --help' for more information.")

/-- Copy the input to the output and to files. -/
def tee (arguments : List String) (files : FileSystem) (input : List UInt8) : Trace :=
  let start : Trace := ⟨files, [], input, [], .exited 0, 0⟩
  arguments.foldl (fun trace name =>
    match trace.files.write ⟨name⟩ input with
    | .ok files => { trace with files := files }
    | .error fault => { trace with
        complaints := trace.complaints ++ lineBytes ("tee: " ++ name ++ ": " ++ fault.wording)
        status := .exited 1 }) start

/-- The whole numbers from the first to the last, one a line. -/
def seq (arguments : List String) (files : FileSystem) (input : List UInt8) : Trace :=
  match arguments.mapM String.toInt? with
  | some [last] => numbers 1 1 last
  | some [first, last] => numbers first 1 last
  | some [first, step, last] => numbers first step last
  | none => complained files input 1 ("seq: invalid floating point argument: '" ++
      ((arguments.find? fun word => word.toInt?.isNone).getD "") ++
      "'\nTry 'seq --help' for more information.")
  | _ => complainedMissing "seq" "operand" files input
where
  numbers (first step last : Int) : Trace :=
    let size : Nat := if step = 0 then 0 else ((last - first) / step + 1).toNat
    wrote files input ((List.range size).flatMap fun (i : Nat) =>
      lineBytes (Int.repr (first + (i : Int) * step)))

/-- The last name of a path, without an ending; more paths can be given with an option. -/
def basename (arguments : List String) (files : FileSystem) (input : List UInt8) : Trace :=
  let (given, words) := frontOptions ['s'] arguments
  let several := given.any fun entry => entry.1 == 's' || entry.1 == 'a'
  let ending := (given.lookup 's').getD (if several then "" else (words[1]?).getD "")
  let named (word : String) : String :=
    let name := String.ofList (((Path.mk word).lastPiece?).getD word.toList)
    if ending != "" && Text.endsIn ending name && name != ending then
      String.ofList (name.toList.take (name.length - ending.length))
    else name
  match words, several with
  | [], _ => complainedMissing "basename" "operand" files input
  | _ :: _ :: extra :: _, false => complained files input 1 ("basename: extra operand '" ++
      extra ++ "'\nTry 'basename --help' for more information.")
  | words, true => wrote files input (words.flatMap fun word => lineBytes (named word))
  | word :: _, false => wrote files input (lineBytes (named word))

/-- The path above a path. -/
def dirname (arguments : List String) (files : FileSystem) (input : List UInt8) : Trace :=
  match arguments with
  | [] => complainedMissing "dirname" "operand" files input
  | word :: _ =>
    let parent := ((Path.mk word).parent?.map Path.text).getD word
    wrote files input (lineBytes (if parent = "" then "." else parent))

/-- The names in a directory, one a line; several directories have titles. -/
def ls (arguments : List String) (files : FileSystem) (input : List UInt8) : Trace :=
  let sources := arguments.filter fun word => !isOption word
  let has (c : Char) : Bool := arguments.any fun word => isOption word && word.toList.contains c
  let hidden := has 'a' || has 'A'
  let sources := if sources.isEmpty then ["."] else sources.mergeSort fun a b => a ≤ b
  let plain := sources.filter fun name =>
    (files.find? ⟨name⟩).isSome && (has 'd' || !files.isDirectory ⟨name⟩)
  let directories := sources.filter fun name => !has 'd' && files.isDirectory ⟨name⟩
  let listed (name : String) : List UInt8 :=
    match files.locate ⟨name⟩ with
    | .error _ => []
    | .ok place =>
      let dots : List Name := if has 'a' then [FileSystem.dot, FileSystem.dots] else []
      let names := dots ++ ((files.entries place).map Prod.fst).filter fun name =>
        hidden || name.head? != some 0x2E
      (names.mergeSort fun a b => a ≤ b).flatMap (· ++ [0x0A])
  let shown := directories.map fun name =>
    if sources.length = 1 then listed name else lineBytes (name ++ ":") ++ listed name
  let groups := (if plain.isEmpty then [] else [plain.flatMap lineBytes]) ++ shown
  let refusals := sources.filterMap fun name => match files.locate ⟨name⟩ with
    | .error fault => some ("ls: cannot access '" ++ name ++ "': " ++ fault.wording)
    | .ok _ => none
  ⟨files, input, [0x0A].intercalate groups, refusals.flatMap lineBytes,
    .exited (if refusals.isEmpty then 0 else 2), 0⟩

/-- Make directories. -/
def mkdir (arguments : List String) (files : FileSystem) (input : List UInt8) : Trace :=
  let above := arguments.contains "-p"
  let start : Trace := ⟨files, input, [], [], .exited 0, 0⟩
  (arguments.filter fun word => !isOption word).foldl (fun trace name =>
    let (files, fault?) :=
      if above then trace.files.makeDirectories ⟨name⟩
      else match trace.files.makeDirectory ⟨name⟩ with
        | .ok files => (files, none)
        | .error fault => (trace.files, some fault)
    match fault? with
    | none => { trace with files := files }
    | some fault => { trace with
        files := files
        complaints := trace.complaints ++
          lineBytes ("mkdir: cannot create directory '" ++ name ++ "': " ++ fault.wording)
        status := .exited 1 }) start

/-- The devices that can be made, by their numbers. -/
def numberedDevices : List ((String × String) × Device) :=
  [(("1", "3"), .null), (("1", "5"), .endless), (("1", "7"), .full), (("1", "8"), .endless),
    (("1", "9"), .endless), (("5", "0"), .terminal)]

/-- Make a device where nothing stands. -/
def makeDevice (files : FileSystem) (p : Path) (device : Device) :
    Except SystemFault FileSystem := do
  match ← files.slot p with
  | .standing => .error .alreadyThere
  | .named directory name slashed =>
    if (files.node? (name :: directory)).isSome then .error .alreadyThere
    else if slashed then .error .notFound
    else .ok (files.put (name :: directory) (.device device))

/-- Make one of the devices that have a number. -/
def mknod (arguments : List String) (files : FileSystem) (input : List UInt8) : Trace :=
  match arguments with
  | [name, "c", major, minor] =>
    let made := match numberedDevices.lookup (major, minor) with
      | some device => makeDevice files ⟨name⟩ device
      | none => .error (.numbered 1)
    match made with
    | .ok files => wrote files input []
    | .error fault => complained files input 1 ("mknod: " ++ name ++ ": " ++ fault.wording)
  | _ => complainedMissing "mknod" "operand" files input

/-- Take away directories in which nothing stands. -/
def rmdir (arguments : List String) (files : FileSystem) (input : List UInt8) : Trace :=
  let start : Trace := ⟨files, input, [], [], .exited 0, 0⟩
  (arguments.filter fun word => !isOption word).foldl (fun trace name =>
    let fault? : Option SystemFault := match trace.files.locate ⟨name⟩ with
      | .error fault => some fault
      | .ok place =>
        if trace.files.node? place ≠ some .directory then some .notADirectory
        else if !(trace.files.entries place).isEmpty then some (.numbered 39) else none
    match trace.files.locate ⟨name⟩, fault? with
    | .ok place, none => { trace with files :=
        { trace.files with nodes := trace.files.nodes.filter fun entry => entry.1 != place } }
    | _, fault? => { trace with
        complaints := trace.complaints ++ lineBytes ("rmdir: failed to remove '" ++ name ++
          "': " ++ (fault?.getD .notFound).wording)
        status := .exited 1 }) start

/-- Take files away. -/
def rm (arguments : List String) (files : FileSystem) (input : List UInt8) : Trace :=
  let letters := (arguments.filter isOption).flatMap fun word => word.toList.drop 1
  let force := letters.contains 'f'
  let deep := letters.contains 'r' || letters.contains 'R'
  let start : Trace := ⟨files, input, [], [], .exited 0, 0⟩
  (arguments.filter fun word => !isOption word).foldl (fun trace name =>
    if trace.files.isDirectory ⟨name⟩ ∧ ¬ deep then
      { trace with
        complaints := trace.complaints ++ lineBytes ("rm: cannot remove '" ++ name ++
          "': Is a directory")
        status := .exited 1 }
    else match trace.files.locate ⟨name⟩ with
    | .ok place => { trace with files :=
        { trace.files with nodes := trace.files.nodes.filter fun entry =>
            !place.isSuffixOf entry.1 } }
    | .error fault =>
      if force then trace
      else { trace with
        complaints := trace.complaints ++
          lineBytes ("rm: cannot remove '" ++ name ++ "': " ++ fault.wording)
        status := .exited 1 }) start

/-- The path at which a file comes to stand that is brought to another path: in a directory
under its own name. -/
def destination (files : FileSystem) (source target : String) : Path :=
  if files.isDirectory ⟨target⟩ then
    (Path.mk target).join ⟨String.ofList (((Path.mk source).lastPiece?).getD [])⟩
  else ⟨target⟩

/-- Bring files to another path; with `keep` the old ones remain. -/
def bring (tool : String) (keep : Bool) (arguments : List String) (files : FileSystem)
    (input : List UInt8) : Trace :=
  let words := arguments.filter fun word => !isOption word
  let start : Trace := ⟨files, input, [], [], .exited 0, 0⟩
  match words, words.getLast? with
  | [], _ | _, none => complainedMissing tool "file operand" files input
  | [word], _ => complained files input 1 (tool ++ ": missing destination file operand after '" ++
      word ++ "'\nTry '" ++ tool ++ " --help' for more information.")
  | _, some target => words.dropLast.foldl (fun trace name =>
    let refused (text : String) : Trace := { trace with
      complaints := trace.complaints ++ lineBytes (tool ++ ": " ++ text)
      status := .exited 1 }
    match trace.files.locate ⟨name⟩ with
    | .error fault => refused ("cannot stat '" ++ name ++ "': " ++ fault.wording)
    | .ok place =>
      match trace.files.node? place with
      | some (.file content executable) =>
        let p := destination trace.files name target
        match trace.files.write p content with
        | .error fault => refused ("cannot create regular file '" ++ p.text ++ "': " ++
            fault.wording)
        | .ok files =>
          let files := match files.locate p with
            | .ok there => files.put there (.file content executable)
            | .error _ => files
          { trace with files :=
              if keep then files
              else { files with nodes := files.nodes.filter fun entry => entry.1 != place } }
      | _ => refused ("-r not specified; omitting directory '" ++ name ++ "'")) start

/-- Copy files. -/
def cp (arguments : List String) (files : FileSystem) (input : List UInt8) : Trace :=
  bring "cp" true arguments files input

/-- Move files. -/
def mv (arguments : List String) (files : FileSystem) (input : List UInt8) : Trace :=
  bring "mv" false arguments files input

/-- Whether a mode lets files be executed, as far as it says so. -/
def executableMode? (mode : String) : Option Bool :=
  let cs := mode.toList
  if cs.contains '+' ∧ cs.contains 'x' then some true
  else if cs.contains '-' ∧ cs.contains 'x' then some false
  else (leadingNumber? cs).map fun n => n / 100 % 2 == 1

/-- Say whether files may be executed. -/
def chmod (arguments : List String) (files : FileSystem) (input : List UInt8) : Trace :=
  let start : Trace := ⟨files, input, [], [], .exited 0, 0⟩
  let change (files : FileSystem) (place : Location) : FileSystem :=
    match files.node? place, executableMode? (arguments.headD "") with
    | some (.file content _), some executable => files.put place (.file content executable)
    | _, _ => files
  (arguments.drop 1).foldl (fun trace name =>
    match trace.files.locate ⟨name⟩ with
    | .ok place => { trace with files := change trace.files place }
    | .error fault => { trace with
        complaints := trace.complaints ++
          lineBytes ("chmod: cannot access '" ++ name ++ "': " ++ fault.wording)
        status := .exited 1 }) start

/-- The value of a word of the form `name=value` among some words. -/
def named? (name : String) (words : List String) : Option String :=
  (words.find? fun word => Text.beginsWith (name ++ "=") word).map fun word =>
    String.ofList (word.toList.drop (name.length + 1))

/-- A size in bytes, with a letter for its unit. -/
def sizeOf? (text : String) : Option Nat :=
  let digits := text.toList.takeWhile Char.isDigit
  let unit? := match text.toList.drop digits.length with
    | [] | ['c'] => some 1
    | ['b'] => some 512
    | ['k'] | ['K'] => some 1024
    | ['M'] => some 1048576
    | _ => none
  match leadingNumber? digits, unit? with
  | some n, some unit => some (n * unit)
  | _, _ => none

/-- Copy blocks of bytes. -/
def dd (arguments : List String) (files : FileSystem) (input : List UInt8) : Trace :=
  let number (name : String) : Option Nat := (named? name arguments).bind sizeOf?
  let size := (number "bs").getD 512
  let count := number "count"
  let skipped := size * (number "skip").getD 0
  let wanted := match count with
    | some n => skipped + size * n
    | none => supply
  let (bytes?, rest) := match named? "if" arguments with
    | some name => (source files wanted ⟨name⟩, input)
    | none => (.ok (input.take wanted), input.drop wanted)
  match bytes? with
  | .error fault => complained files input 1 ("dd: failed to open '" ++
      (named? "if" arguments).getD "" ++ "': " ++ fault.wording)
  | .ok bytes =>
    let kept := (bytes.take wanted).drop skipped
    let blocks := Nat.repr (kept.length / size) ++ "+" ++
      (if kept.length % size = 0 then "0" else "1")
    let complaints := if named? "status" arguments = some "none" then []
      else lineBytes (blocks ++ " records in\n" ++ blocks ++ " records out")
    match named? "of" arguments with
    | none => ⟨files, rest, kept, complaints, .exited 0, 0⟩
    | some name =>
      match files.write ⟨name⟩ kept with
      | .ok files => ⟨files, rest, [], complaints, .exited 0, 0⟩
      | .error fault => complained files rest 1 ("dd: failed to open '" ++ name ++ "': " ++
          fault.wording)

/-- Make files that are not there. -/
def touch (arguments : List String) (files : FileSystem) (input : List UInt8) : Trace :=
  let start : Trace := ⟨files, input, [], [], .exited 0, 0⟩
  arguments.foldl (fun trace name =>
    if trace.files.pathExists ⟨name⟩ then trace
    else match trace.files.write ⟨name⟩ [] with
      | .ok files => { trace with files := files }
      | .error fault => { trace with
          complaints := trace.complaints ++
            lineBytes ("touch: cannot touch '" ++ name ++ "': " ++ fault.wording)
          status := .exited 1 }) start

end Tool

end FlameFold.Machine
