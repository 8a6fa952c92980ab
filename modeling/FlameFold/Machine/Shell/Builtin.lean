import FlameFold.Machine.Shell.Condition
import FlameFold.Machine.Shell.State

/-!
# What a shell does itself

The commands that a shell needs no program for, and that run no other command.
-/

namespace FlameFold.Machine.Shell

/-- The number of a signal. -/
def signal? (name : String) : Option Nat :=
  match name with
  | "EXIT" => some 0
  | "HUP" => some 1
  | "INT" => some 2
  | "QUIT" => some 3
  | "ABRT" => some 6
  | "KILL" => some 9
  | "USR1" => some 10
  | "SEGV" => some 11
  | "USR2" => some 12
  | "PIPE" => some 13
  | "ALRM" => some 14
  | "TERM" => some 15
  | _ => name.toNat?

namespace Builtin

/-- Write bytes as the output of a command. -/
def say (name : String) (bytes : List UInt8) (code : Nat) : Act Unit := do
  let state ← get
  if bytes.isEmpty ∨ state.refusal?.isNone then
    set { state.emit state.out bytes with status := code }
  else
    complain (name ++ ": " ++ name ++ ": I/O error")
    setStatus 1

/-- The number that a word spells, if there is one. -/
def numberOf (name : String) (word? : Option String) (otherwise : Nat) : Act Nat :=
  match word? with
  | none => return otherwise
  | some word => match word.toList.all Char.isDigit, word.toNat? with
    | true, some n => return n
    | _, _ => refuse (name ++ ": Illegal number: " ++ word)

/-- The name before an equals sign, and the value after it if there is one. -/
def nameAndValue (word : String) : String × Option String :=
  match word.toList.span (· != '=') with
  | (name, _ :: value) => (String.ofList name, some (String.ofList value))
  | (_, []) => (word, none)

/-- Run a step for each of some words. -/
def forWords (words : List String) (act : String → Act Unit) : Act Unit := do
  words.forM act
  setStatus 0

/-- Give variables values and tell programs them, or let them keep their values. -/
def declare (name : String) (arguments : List String) : Act Unit :=
  forWords (arguments.filter (! Tool.isOption ·)) fun word => do
    let (target, value?) := nameAndValue word
    if let some value := value? then assign target value
    modify fun state =>
      if name = "export" then state.exportName target
      else { state with fixed := target :: state.fixed }

/-- Give variables values until the named command that runs has ended. -/
def keep (arguments : List String) : Act Unit := do
  if (← get).locals.isNone then refuse "local: not in a function"
  forWords arguments fun word => do
    let (target, value?) := nameAndValue word
    modify fun state => { state with
      locals := state.locals.map ((target, state.values.lookup target) :: ·) }
    if let some value := value? then assign target value

/-- Say what is to be done at signals. -/
def trap (arguments : List String) : Act Unit := do
  let words := arguments.filter (· != "--")
  let state ← get
  match words with
  | [] => setStatus 0
  | action :: names =>
    let isReset := action = "-" ∨ names.isEmpty ∨ (signal? action).isSome
    let names := if names.isEmpty ∨ (signal? action).isSome then words else names
    match names.find? fun name => (signal? name).isNone with
    | some name =>
      set (state.emit state.err (Tool.lineBytes ("trap: " ++ name ++ ": bad trap")))
      setStatus 1
    | none =>
      let numbers := names.filterMap signal?
      let others := state.traps.filter fun entry => !numbers.contains entry.1
      let added := if isReset then [] else numbers.map (·, action)
      set { state with traps := added ++ others, status := 0 }

/-- Wait for the jobs, or for one of them. -/
def wait (arguments : List String) : Act Unit := do
  match (arguments.head?).bind String.toNat? with
  | none =>
    let _ ← await fun _ => true
    setStatus 0
  | some target =>
    match ← await fun job => job.number + selfNumber == target with
    | none => setStatus 127
    | some job =>
      if let some signal := job.signal then announce signal
      setStatus job.status

/-- Switch a setting of the shell. -/
def switch (isOn : Bool) (letter : Char) : Act Unit := do
  if !"abefhimnpstuvxCEIV".toList.contains letter then
    refuse ("set: Illegal option " ++ String.ofList [if isOn then '-' else '+', letter])
  modify fun state => match letter with
    | 'e' => { state with strict := isOn }
    | 'u' => { state with careful := isOn }
    | 'x' => { state with traced := isOn }
    | _ => state

/-- The letter of a setting with a long name. -/
def settingLetter? (name : String) : Option Char :=
  [("errexit", 'e'), ("noglob", 'f'), ("interactive", 'i'), ("monitor", 'm'), ("noexec", 'n'),
    ("stdin", 's'), ("xtrace", 'x'), ("verbose", 'v'), ("vi", 'V'), ("emacs", 'E'),
    ("noclobber", 'C'), ("allexport", 'a'), ("notify", 'b'), ("nounset", 'u')].lookup name

/-- Switch settings of the shell, or give the script other arguments. -/
def settings : List String → Act Unit
  | [] => setStatus 0
  | "--" :: words => modify fun state => { state with arguments := words, status := 0 }
  | [word] => do
    if Tool.isOption word then
      (word.toList.drop 1).forM (switch true)
    else if Text.beginsWith "+" word then (word.toList.drop 1).forM (switch false)
    else if word ≠ "-" then modify fun state => { state with arguments := [word] }
    setStatus 0
  | word :: name :: rest => do
    let isOn := Tool.isOption word
    if isOn ∨ Text.beginsWith "+" word then
      if word.toList.getLast? = some 'o' then
        ((word.toList.drop 1).filter (· != 'o')).forM (switch isOn)
        match settingLetter? name with
        | some letter => switch isOn letter
        | none => refuse ("set: Illegal option " ++ (if isOn then "-o " else "+o ") ++ name)
        settings rest
      else
        (word.toList.drop 1).forM (switch isOn)
        settings (name :: rest)
    else modify fun state => { state with arguments := word :: name :: rest, status := 0 }

/-- Go to another directory. -/
def cd (arguments : List String) : Act Unit := do
  let target := arguments.headD "/"
  let state ← get
  match state.files.locate ⟨target⟩ with
  | .ok place =>
    if state.files.node? place = some .directory then
      set { state with files := { state.files with here := place }, status := 0 }
      return
  | .error _ => pure ()
  complain ("cd: can't cd to " ++ target)
  setStatus 2

/-- Ask a question. -/
def test (name : String) (arguments : List String) : Act Unit := do
  let closed := name = "[" → arguments.getLast? = some "]"
  let words := if name = "[" then arguments.dropLast else arguments
  let state ← get
  match if closed then Condition.test state.files words else .error "missing ]" with
  | .ok true => setStatus 0
  | .ok false => setStatus 1
  | .error text =>
    complain (name ++ ": " ++ text)
    setStatus 2

/-- The next line of some bytes, whether it has come to its end, and what is left. A
backslash protects the byte after it and joins lines, unless `raw` is set. -/
def nextLine (raw : Bool) : List UInt8 → Marked × Bool × List UInt8
  | [] => ([], false, [])
  | 0x0A :: bytes => ([], true, bytes)
  | 0x5C :: byte :: bytes =>
    if raw then
      let (line, ended, rest) := nextLine raw (byte :: bytes)
      (('\\', false) :: line, ended, rest)
    else
      let (line, ended, rest) := nextLine raw bytes
      (if byte = 0x0A then line else (Char.ofNat byte.toNat, true) :: line, ended, rest)
  | byte :: bytes =>
    let (line, ended, rest) := nextLine raw bytes
    ((Char.ofNat byte.toNat, false) :: line, ended, rest)

/-- Give variables the parts of the next line of the input. -/
def read (arguments : List String) : Act Unit := do
  let raw := arguments.any fun word => Tool.isOption word && word.toList.contains 'r'
  let names := arguments.filter fun word => !Tool.isOption word
  if names.isEmpty then
    complain "read: arg count"
    setStatus 2
    return
  let state ← get
  let (line, ended, rest) := nextLine raw state.input
  let text (word : String) : String := Text.decodeLossy (Tool.charBytes word.toList)
  set { state with input := rest }
  let values := pieces state.separators.toList names.length line
  (names.zip values).forM fun (name, value) => assign name (text value)
  setStatus (if ended then 0 else 1)

/-- What the shell finds under a name, and how it says so. -/
def found? (state : State) (isNamed : Bool) (name : String) : Option (String × String) :=
  if keywordNames.contains name then some (name, "a shell keyword")
  else if (state.functions.lookup name).isSome then some (name, "a shell function")
  else if isNamed then
    some (name, if fixedNames.contains name then "a special shell builtin" else "a shell builtin")
  else match Machine.lookup state.files name with
    | .ok (p, _) => some (p.text, "a tracked alias for " ++ p.text)
    | .error _ => none
where
  /-- Words that shape commands. -/
  keywordNames : List String :=
    ["!", "case", "do", "done", "elif", "else", "esac", "fi", "for", "if", "then", "until",
      "while", "\x7b", "\x7d"]

end Builtin

/-- The names of the commands that a shell does itself. -/
def builtinNames : List String :=
  fixedNames ++ ["[", "alias", "cd", "command", "echo", "false", "hash", "jobs", "kill", "local",
    "printf", "pwd", "read", "test", "true", "type", "ulimit", "umask", "wait"]

/-- What a shell does itself under a name. -/
def builtin? (name : String) (arguments : List String) : Option (Act Unit) :=
  match name with
  | ":" | "true" | "alias" | "hash" | "jobs" | "times" => some (setStatus 0)
  | "umask" => some (Builtin.say name
      (if arguments.isEmpty then Tool.lineBytes "0022" else []) 0)
  | "ulimit" => some (Builtin.say name
      (if arguments.isEmpty then Tool.lineBytes "unlimited" else []) 0)
  | "false" => some (setStatus 1)
  | "unset" => some do
      let (given, names) := Tool.frontOptions [] arguments
      if given.any (·.1 == 'f') then
        modify fun state => { state with
          functions := state.functions.filter fun entry => !names.contains entry.1 }
      else
        if let some name := names.find? (← get).fixed.contains then
          refuse ("unset: " ++ name ++ ": is read only")
        modify (·.forget names)
      setStatus 0
  | "local" => some (Builtin.keep arguments)
  | "export" | "readonly" => some (Builtin.declare name arguments)
  | "trap" => some (Builtin.trap arguments)
  | "wait" => some (Builtin.wait arguments)
  | "set" => some (Builtin.settings arguments)
  | "cd" => some (Builtin.cd arguments)
  | "test" | "[" => some (Builtin.test name arguments)
  | "read" => some (Builtin.read arguments)
  | "pwd" => some do
      let here := (← get).files.here.reverse.map Text.decodeLossy
      Builtin.say name (Tool.lineBytes ("/" ++ "/".intercalate here)) 0
  | "echo" => some do
      let (words, newline) := match arguments with
        | "-n" :: words => (words, false)
        | words => (words, true)
      let (bytes, goes) := Format.interpret (" ".intercalate words)
      Builtin.say name (bytes ++ if newline && goes then [0x0A] else []) 0
  | "printf" => some do
      let state ← get
      let speaker := state.self ++ ": " ++ Nat.repr state.line ++ ": "
      let trace := Format.printf speaker arguments state.files state.input
      set (state.emit state.err trace.complaints)
      Builtin.say name trace.output (match trace.status with
        | .exited code => code
        | _ => 0)
  | "exit" => some do
      throw (.exit ((← Builtin.numberOf name arguments.head? (← get).status) % 256))
  | "return" => some do
      throw (.return (← Builtin.numberOf name arguments.head? (← get).status))
  | "break" | "continue" => some do
      let n := min (← Builtin.numberOf name arguments.head? 1) (← get).loops
      setStatus 0
      if n ≠ 0 then throw (if name = "break" then .leave n else .again n)
  | "shift" => some do
      let n ← Builtin.numberOf name arguments.head? 1
      let state ← get
      if state.arguments.length < n then refuse "shift: can't shift that many"
      set { state with arguments := state.arguments.drop n, status := 0 }
  | _ => none

/-- The name of a command in front of its options: which one it is to look for only, and the
words that are left. -/
def commandWords : List String → Option Bool × List String
  | "-v" :: words => (some false, words)
  | "-V" :: words => (some true, words)
  | "-p" :: words | "--" :: words => (none, words)
  | words => (none, words)

/-- Say where commands are found. -/
def locateAll (full : Bool) (refusal : String → String) (names : List String) : Act Unit := do
  setStatus 0
  names.forM fun name => do
    let state ← get
    match Builtin.found? state (builtinNames.contains name) name with
    | some (short, long) =>
      set (state.emit state.out (Tool.lineBytes (if full then name ++ " is " ++ long else short)))
    | none =>
      let text := refusal name
      unless text.isEmpty do set (state.emit state.out (Tool.lineBytes text))
      setStatus 127

end FlameFold.Machine.Shell
