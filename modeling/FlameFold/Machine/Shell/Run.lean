import FlameFold.Machine.Shell.Arithmetic
import FlameFold.Machine.Shell.Builtin
import FlameFold.Machine.Shell.Reader

/-!
# Running programs

A shell runs the commands of a script one after another. Every step uses one unit of fuel; a
program that uses all of it is taken to run for ever.
-/

namespace FlameFold.Machine.Shell

/-- Say that the output of a tool takes no bytes. -/
def refuseOutput (name : String) (fault : SystemFault) : Act Unit :=
  let (text, code) := writeRefusal name fault
  modify fun state => { state.emit state.err (Tool.lineBytes text) with status := code }

/-- Take over what a tool left behind. A tool that does not end is ended when nothing reads
what it writes any more. -/
def finishTool (name : String) (trace : Trace) : Act Unit := do
  let before ← get
  let refusal? := if trace.output.isEmpty then none else before.refusal?
  let endless := trace.status = .endless ∧ ¬ before.piped ∧ refusal?.isNone
  modify fun state =>
    let state := { state with
      files := trace.files
      input := trace.rest
      slept := state.slept + trace.slept
      status := match trace.status with
        | .exited code => code
        | .killed signal => 128 + signal
        | .endless => 141 }
    (state.emit state.out trace.output).emit state.err trace.complaints
  if let some fault := refusal? then refuseOutput name fault
  if endless ∨ (← get).isOver then throw .endless

/-- Write the values of variables, or all variables with their values. -/
def tellVariables (names : List String) : Act Unit := do
  let state ← get
  let told := state.values.filter fun entry => state.exported.contains entry.1
  let found := names.map fun name => told.lookup name
  let lines := if names.isEmpty then told.map fun (name, value) => name ++ "=" ++ value
    else found.filterMap id
  Builtin.say "printenv" (lines.flatMap Tool.lineBytes)
    (if found.all Option.isSome then 0 else 1)

/-- Write where programs are found. -/
def tellPlaces (names : List String) : Act Unit := do
  let files := (← get).files
  let found := names.map fun name => (Machine.lookup files name).toOption
  let lines := found.filterMap fun found? => found?.map fun (p, _) => p.text
  Builtin.say "which" (lines.flatMap Tool.lineBytes)
    (if !names.isEmpty && found.all Option.isSome then 0 else 1)

/-- What a tool says of a program that it cannot run. -/
def runRefusal (tool program : String) (fault : SystemFault) : String :=
  match tool with
  | "xargs" => "xargs: " ++ program ++ ": " ++ fault.wording
  | "env" | "nice" => tool ++ ": '" ++ program ++ "': " ++ fault.wording
  | _ => tool ++ ": failed to run command '" ++ program ++ "': " ++ fault.wording

/-- Complain that a tool needs an argument. -/
def missing (tool : String) (code : Nat) : Act Unit :=
  modify fun state => { state.emit state.err (Tool.lineBytes (tool ++ ": missing operand\nTry '" ++
    tool ++ " --help' for more information.")) with status := code }

/-- The words of a text: quotes and backslashes protect white space. -/
def quotedWords : Nat → List Char → Option (List Char) → List (List Char)
  | 0, _, _ => []
  | _, [], begun => begun.toList
  | fuel + 1, c :: cs, begun =>
    if c = ' ' ∨ c = '\t' ∨ c = '\n' then begun.toList ++ quotedWords fuel cs none
    else if c = '\'' ∨ c = '"' then
      let inside := cs.takeWhile (· != c)
      quotedWords fuel (cs.drop (inside.length + 1)) (some (begun.getD [] ++ inside))
    else if c = '\\' then
      quotedWords fuel (cs.drop 1) (some (begun.getD [] ++ cs.take 1))
    else quotedWords fuel cs (some (begun.getD [] ++ [c]))

/-- The groups of words with which `xargs` runs a program, and whether they stand in the
place of a mark. -/
def groupsOf (given : List (Char × String)) (input : List UInt8) : List (List String) :=
  let chars := Tool.byteChars input
  let lines (mark : Char) : List (List Char) :=
    (chars.splitOn mark).reverse.dropWhile List.isEmpty |>.reverse
  let has (c : Char) : Bool := given.any (·.1 == c)
  let items := if has '0' then lines '\x00'
    else if has 'I' then (lines '\n').map (·.dropWhile fun c => c == ' ' || c == '\t')
    else quotedWords (chars.length + 1) chars none
  let words := items.map fun item => Text.decodeLossy (Tool.charBytes item)
  let size := if has 'I' then 1
    else max 1 (((given.lookup 'n').bind String.toNat?).getD words.length)
  let all := words.toArray
  let groups := (List.range ((all.size + size - 1) / size)).map fun i =>
    (all.extract (i * size) (i * size + size)).toList
  if groups.isEmpty ∧ ¬ has 'r' ∧ ¬ has 'I' then [[]] else groups

/-- What the value of a variable counts for under a rule. -/
def present (orEmpty : Bool) (value? : Option String) : Option String :=
  if orEmpty then value?.filter (! ·.isEmpty) else value?

/-- The shell's options at the front of its arguments, as letters, and what is left. -/
def shellOptions : List String → List Char × List String
  | [] => ([], [])
  | "--" :: rest => ([], rest)
  | word :: rest =>
    if Tool.isOption word then
      let (letters, rest) := shellOptions rest
      (word.toList.drop 1 ++ letters, rest)
    else ([], word :: rest)

mutual

/-- Run a tool that is not a shell, or a shell. -/
def runCall (fuel : Nat) (call : Call) : Act Unit := do
  match fuel with
  | 0 => throw .tired
  | fuel + 1 =>
    let state ← get
    if state.isOver then throw .endless
    if shells.contains call.tool then
      let own := apart do
        modify fun state => { state with
          alone := false
          values := state.values.filter fun entry => state.exported.contains entry.1
          fixed := []
          locals := none
          functions := []
          traps := []
          loops := 0
          strict := false
          careful := false
          traced := false }
        runShell fuel call
      if state.alone then own else survived own
    else if runners.contains call.tool then runRunner fuel call.tool call.arguments
    else match toolbox.lookup call.tool with
      | none => setStatus 127
      | some tool => finishTool call.tool (tool call.arguments state.files state.input)

/-- Find and run a program for a tool. -/
def runFor (fuel : Nat) (tool program : String) (arguments : List String) : Act Unit := do
  match fuel with
  | 0 => throw .tired
  | fuel + 1 =>
    match resolve (← get).files program arguments with
    | .ok call => runCall fuel call
    | .error fault =>
      modify fun state => { state.emit state.err
        (Tool.lineBytes (runRefusal tool program fault)) with
        status := if fault = .notFound then 127 else 126 }

/-- Run a tool that runs another program or asks the shell. -/
def runRunner (fuel : Nat) (tool : String) (arguments : List String) : Act Unit := do
  match fuel with
  | 0 => throw .tired
  | fuel + 1 =>
    match tool with
    | "env" => apart (runSurrounded fuel arguments)
    | "nohup" =>
      match arguments with
      | program :: rest => runFor fuel tool program rest
      | [] => missing tool 125
    | "nice" =>
      match (Tool.frontOptions ['n'] arguments).2 with
      | program :: rest => runFor fuel tool program rest
      | [] => Builtin.say tool (Tool.lineBytes "0") 0
    | "timeout" =>
      let (given, words) := Tool.frontOptions ['s', 'k'] arguments
      match words with
      | span :: program :: rest =>
        let kills := (given.lookup 's').any fun name => name == "KILL" || name == "9"
        match Tool.span? span with
        | some span =>
          let act := runLimited fuel span kills program rest
          if (← get).alone then act else survived act
        | none =>
          modify fun state => { state.emit state.err (Tool.lineBytes
            ("timeout: invalid time interval '" ++ span ++
              "'\nTry 'timeout --help' for more information.")) with status := 125 }
      | _ => missing tool 125
    | "xargs" =>
      let (given, words) := Tool.frontOptions ['n', 'I', 'd', 'L', 'P', 's'] arguments
      let state ← get
      set { state with input := [], status := 0 }
      runForEach fuel (words.headD "echo") (words.drop 1) (given.lookup 'I')
        (groupsOf given state.input)
    | "printenv" => tellVariables arguments
    | "which" => tellPlaces arguments
    | _ => runPlain fuel tool arguments

/-- Run a program for each group of words, which stand at the end of its arguments or in the
place of a mark. -/
def runForEach (fuel : Nat) (program : String) (arguments : List String) (mark : Option String)
    (groups : List (List String)) : Act Unit := do
  match fuel, groups with
  | 0, _ => throw .tired
  | _, [] => return ()
  | fuel + 1, group :: rest =>
    let words := match mark with
      | some mark => arguments.map fun word => word.replace mark (" ".intercalate group)
      | none => arguments ++ group
    runFor fuel "xargs" program words
    let status := (← get).status
    if status = 255 then
      modify fun state => { state.emit state.err (Tool.lineBytes ("xargs: " ++ program ++
        ": exited with status 255; aborting")) with status := 124 }
    else if status = 126 ∨ status = 127 then return ()
    else
      runForEach fuel program arguments mark rest
      if status ≠ 0 ∧ (← get).status = 0 then setStatus 123
      else if (← get).status ≠ 0 ∧ (← get).status < 123 then setStatus 123

/-- Run a program for a limited time. -/
def runLimited (fuel : Nat) (span : Nat) (kills : Bool) (program : String)
    (arguments : List String) : Act Unit := do
  match fuel with
  | 0 => throw .tired
  | fuel + 1 => fun before =>
    let stop := before.slept + span
    let isFirst := span ≠ 0 ∧ before.patience.all (stop < ·)
    let inner := if isFirst then { before with patience := some stop } else before
    match survived (apart (runFor fuel "timeout" program arguments)) inner with
    | .ok () after => .ok () { after with patience := before.patience }
    | .error halt after =>
      if isFirst ∧ (halt = .endless ∨ halt = .tired) then
        let after := { after with patience := before.patience, slept := stop }
        if kills then .error (.killed 9) after else .ok () { after with status := 124 }
      else .error halt { after with patience := before.patience }

/-- Run a program with other variables. -/
def runSurrounded (fuel : Nat) (words : List String) : Act Unit := do
  match fuel, words with
  | 0, _ => throw .tired
  | _, [] =>
    let state ← get
    let lines := (state.values.filter fun entry => state.exported.contains entry.1).map
      fun (name, value) => name ++ "=" ++ value
    let bytes := lines.flatMap Tool.lineBytes
    match if bytes.isEmpty then none else state.refusal? with
    | some fault => refuseOutput "env" fault
    | none => set { state.emit state.out bytes with status := 0 }
  | fuel + 1, word :: rest =>
    if word = "-i" ∨ word = "-" then
      modify fun state => { state with values := [], exported := [] }
      runSurrounded fuel rest
    else if word = "-u" then
      modify (·.forget (rest.take 1))
      runSurrounded fuel (rest.drop 1)
    else if word = "--" then runSurrounded fuel rest
    else if Tool.isOption word then
      modify fun state => { state.emit state.err (Tool.lineBytes ("env: invalid option -- '" ++
        String.ofList ((word.toList.drop 1).take 1) ++
        "'\nTry 'env --help' for more information.")) with status := 125 }
    else match Builtin.nameAndValue word with
      | (name, some value) =>
        modify fun state => (state.assign name value).exportName name
        runSurrounded fuel rest
      | (program, none) => runFor fuel "env" program rest

/-- Run a shell with its own arguments. -/
def runShell (fuel : Nat) (call : Call) : Act Unit := do
  match fuel with
  | 0 => throw .tired
  | fuel + 1 =>
    let (letters, words) := shellOptions call.arguments
    modify fun state => { state with self := call.self, arguments := [], line := 0 }
    (letters.filter fun c => c != 'c').forM (Builtin.switch true)
    if letters.contains 'c' then
      match words with
      | script :: rest =>
        modify fun state => { state with self := rest.headD call.self, arguments := rest.drop 1 }
        runWhole fuel script
      | [] => refuse "-c requires an argument"
    else match words with
      | file :: rest =>
        if letters.contains 's' then
          modify fun state => { state with arguments := words }
          runInput fuel
        else
          let state ← get
          match state.files.read ⟨file⟩ with
          | .error fault =>
            refuse ("cannot open " ++ file ++ ": " ++
              (if fault = .notFound then "No such file" else fault.wording))
          | .ok content =>
            set { state with self := file, arguments := rest }
            runWhole fuel (Text.decodeLossy content)
      | [] => runInput fuel

/-- Run the input as a script. -/
def runInput (fuel : Nat) : Act Unit := do
  match fuel with
  | 0 => throw .tired
  | fuel + 1 =>
    let state ← get
    set { state with input := [] }
    runWhole fuel (Text.decodeLossy state.input)

/-- Run a script, and at its end what it has asked for. -/
def runWhole (fuel : Nat) (script : String) : Act Unit := do
  match fuel with
  | 0 => throw .tired
  | fuel + 1 => fun before =>
    let finish (code : Nat) (after : State) : EStateM.Result Halt State Unit :=
      match after.traps.lookup 0 with
      | none => .error (.exit code) after
      | some last =>
        match runScript fuel "" last { after with traps := [], status := code } with
        | .ok () after => .error (.exit code) after
        | result => result
    match runScript fuel "" script before with
    | .ok () after => finish after.status after
    | .error (.exit code) after => finish code after
    | .error (.return code) after => finish code after
    | result => result

/-- Run a script, whose faults are told by `speaker`. -/
def runScript (fuel : Nat) (speaker script : String) : Act Unit := do
  match fuel with
  | 0 => throw .tired
  | fuel + 1 => runLines fuel speaker false (Cursor.front script)

/-- Run the lines of a script from a place on. A line is read when those before it have
run; a script without commands ends well. -/
def runLines (fuel : Nat) (speaker : String) (ran : Bool) (cursor : Cursor) : Act Unit := do
  match fuel with
  | 0 => throw .tired
  | fuel + 1 =>
    if cursor.rest.isEmpty then
      if !ran then setStatus 0
    else match readLine cursor with
      | .error (line, fault) =>
        complainAt line (speaker ++ fault.message)
        throw (.exit 2)
      | .ok (commands, after) =>
        runAll fuel commands
        runLines fuel speaker (ran || !commands.isEmpty) after

/-- Run commands in turn. -/
def runAll (fuel : Nat) (commands : List Command) : Act Unit := do
  match fuel, commands with
  | 0, _ => throw .tired
  | _, [] => return ()
  | fuel + 1, first :: rest =>
    run fuel true first
    runAll fuel rest

/-- Run commands whose success is asked for. -/
def runTested (fuel : Nat) (commands : List Command) : Act Unit := do
  match fuel with
  | 0 => throw .tired
  | fuel + 1 =>
    let before ← get
    set { before with strict := false }
    runAll fuel commands
    modify fun state => { state with strict := before.strict }

/-- Expand a word into fields; the separators given cut the values in it. -/
def expandParts (fuel : Nat) (separators : String) (word : Word) (fields : Fields) :
    Act Fields := do
  match fuel, word with
  | 0, _ => throw .tired
  | _, [] => return fields
  | fuel + 1, part :: rest =>
    let fields ← match part with
      | .plain text quoted => pure (fields.add text quoted)
      | .variable name rule operand quoted =>
        expandVariable fuel separators name rule operand quoted fields
      | .output body quoted =>
        let status := (← get).status
        let bytes ← captured false (apart (runAll fuel body))
        modify fun state => { state with status := status, lastOutput := some state.status }
        pure (fields.addValue separators quoted (substituted bytes))
      | .sum expression quoted =>
        let text ← expandOne fuel expression
        let state ← get
        match Arithmetic.evaluate (fun name => (state.value? name).getD "") text with
        | .ok (n, given) =>
          given.reverse.forM fun (name, value) => assign name value
          pure (fields.addValue separators quoted (Int.repr n))
        | .error fault => refuse (fault.message text)
    expandParts fuel separators rest fields

/-- Expand what is taken of a variable. -/
def expandVariable (fuel : Nat) (separators name : String) (rule : Rule) (operand : Word)
    (quoted : Bool) (fields : Fields) : Act Fields := do
  match fuel with
  | 0 => throw .tired
  | fuel + 1 =>
    let state ← get
    let value? := state.value? name
    let all := name = "@" ∨ name = "*"
    let added (value : String) : Fields := fields.addValue separators quoted value
    let known : Act Unit := do
      if value?.isNone ∧ state.careful then refuse (name ++ ": parameter not set")
    let own : Act Fields := do
      known
      if name = "@" ∧ quoted then return fields.addEach state.arguments
      else if all ∧ ¬ quoted then return fields.splitEach separators state.arguments
      else return added (value?.getD "")
    let other : Act Fields :=
      if quoted then expandParts fuel separators operand (fields.add "" true)
      else expandLoose fuel separators operand fields
    match rule with
    | .value => own
    | .length =>
      known
      return added (Nat.repr (value?.getD "").utf8ByteSize)
    | .otherwise orEmpty => if (present orEmpty value?).isSome then own else other
    | .present orEmpty =>
      if (present orEmpty value?).isSome then other else return fields.add "" quoted
    | .assigned orEmpty =>
      if (present orEmpty value?).isSome then own
      else
        let text ← expandOne fuel operand
        assign name text
        return added text
    | .required orEmpty =>
      if (present orEmpty value?).isSome then own
      else
        let text ← expandOne fuel operand
        let usual := "parameter not set" ++ (if orEmpty then " or null" else "")
        refuse (name ++ ": " ++ (if text.isEmpty then usual else text))
    | .without front longest =>
      known
      let pattern ← expandParts fuel "" operand .none
      return added (cutMatch front longest (pattern.all.headD []) (value?.getD ""))
    | .unknown => refuse "Bad substitution"

/-- Expand an operand that stands outside quotes: separators cut its text, too. -/
def expandLoose (fuel : Nat) (separators : String) (word : Word) (fields : Fields) :
    Act Fields := do
  match fuel, word with
  | 0, _ => throw .tired
  | _, [] => return fields
  | fuel + 1, part :: rest =>
    let fields ← match part with
      | .plain text false => pure (fields.split separators text)
      | part => expandParts fuel separators [part] fields
    expandLoose fuel separators rest fields

/-- Expand a word into one text. -/
def expandOne (fuel : Nat) (word : Word) : Act String := do
  match fuel with
  | 0 => throw .tired
  | fuel + 1 =>
    let fields ← expandParts fuel "" word .none
    return " ".intercalate (fields.all.map fieldText)

/-- Expand words into the words of a call. -/
def expandAll (fuel : Nat) (words : List Word) : Act (List String) := do
  match fuel, words with
  | 0, _ => throw .tired
  | _, [] => return []
  | fuel + 1, word :: rest =>
    let fields ← expandParts fuel (← get).separators word .none
    let files := (← get).files
    let first := fields.all.flatMap (globbed files)
    return first ++ (← expandAll fuel rest)

/-- Change where the streams go; tells whether that was possible. -/
def redirect (fuel : Nat) (redirections : List Redirection) : Act Bool := do
  match fuel, redirections with
  | 0, _ => throw .tired
  | _, [] => return true
  | fuel + 1, one :: rest =>
    match one with
    | .input stream word =>
      let name ← expandOne fuel word
      let state ← get
      match Tool.source state.files Tool.supply ⟨name⟩ with
      | .ok bytes =>
        if stream = 0 then set { state with input := bytes }
        redirect fuel rest
      | .error fault =>
        complain ("cannot open " ++ name ++ ": " ++
          (if fault = .notFound then "No such file" else fault.wording))
        return false
    | .here stream word =>
      let text ← expandOne fuel word
      if stream = 0 then modify fun state => { state with input := Text.encode text }
      redirect fuel rest
    | .duplicate stream word =>
      let target ← expandOne fuel word
      let state ← get
      if target = "-" then
        set (if stream = 0 then { state with input := [] } else state.withSink stream .closed)
        redirect fuel rest
      else match target.toList.map Char.isDigit, target.toNat? with
        | [true], some n =>
          match if n = 0 ∨ stream = 0 then some .nowhere else state.sink? n with
          | none | some .closed =>
            complain (target ++ ": " ++ SystemFault.closedStream.wording)
            return false
          | some sink =>
            set (state.withSink stream sink)
            redirect fuel rest
        | _, _ => refuse "Syntax error: Bad fd number"
    | .file stream word keep =>
      let name ← expandOne fuel word
      let state ← get
      let opened : Except SystemFault FileSystem :=
        if keep ∧ state.files.isFile ⟨name⟩ then .ok state.files else state.files.write ⟨name⟩ []
      match opened with
      | .ok files =>
        set ({ state with files := files }.withSink stream (state.sinkAt ⟨name⟩))
        redirect fuel rest
      | .error fault =>
        complain ("cannot create " ++ name ++ ": " ++
          (if fault = .notFound then "Directory nonexistent" else fault.wording))
        return false

/-- Run a step with other streams, and restore them. -/
def withStreams (fuel : Nat) (redirections : List Redirection) (act refused : Act Unit) :
    Act Unit := do
  match fuel with
  | 0 => throw .tired
  | fuel + 1 =>
    let before ← get
    let readsFile := redirections.any fun
      | .input 0 _ | .here 0 _ | .duplicate 0 _ => true
      | _ => false
    let restore (after : State) : State :=
      { after with
        out := before.out
        err := before.err
        others := before.others
        input := if readsFile then before.input else after.input }
    if ← redirect fuel redirections then
      fun state => match act state with
        | .ok () after => .ok () (restore after)
        | .error halt after => .error halt (restore after)
    else
      modify fun after => restore { after with status := 2 }
      refused

/-- Find a program and run it. -/
def runProgram (fuel : Nat) (speaker program : String) (arguments : List String) : Act Unit := do
  match fuel with
  | 0 => throw .tired
  | fuel + 1 =>
    match resolve (← get).files program arguments with
    | .ok call => runCall fuel call
    | .error fault =>
      if fault = notRunnable then runCall fuel ⟨"sh", "sh", program :: arguments⟩
      else
        complain (speaker ++ program ++ ": " ++
          (if program.isEmpty then SystemFault.notPermitted.wording
            else if fault = .notFound then "not found" else fault.wording))
        setStatus (if fault = .notFound then 127 else 126)

/-- Run a command of the shell itself, a named command or a program. -/
def runWords (fuel : Nat) (name : String) (arguments : List String) : Act Unit := do
  match fuel with
  | 0 => throw .tired
  | fuel + 1 =>
    let before ← get
    match before.functions.lookup name with
    | none => runPlain fuel name arguments
    | some body =>
      set { before with arguments := arguments, locals := some [], loops := 0 }
      fun state =>
        let left (after : State) : State :=
          let after := (after.locals.getD []).foldl (fun state (name, value?) =>
            match value? with
            | some value => state.assign name value
            | none => state.forget [name]) after
          { after with
            arguments := before.arguments
            locals := before.locals
            loops := before.loops }
        match runAll fuel body state with
        | .ok () after => .ok () (left after)
        | .error (.return code) after => .ok () { left after with status := code }
        | .error halt after => .error halt (left after)

/-- Run a command of the shell itself or a program. -/
def runPlain (fuel : Nat) (name : String) (arguments : List String) : Act Unit := do
  match fuel with
  | 0 => throw .tired
  | fuel + 1 =>
    match builtin? name arguments with
    | some act => act
    | none =>
      match name with
      | "kill" => runKill fuel arguments
      | "eval" => runScript fuel "eval: " (" ".intercalate arguments)
      | "exec" =>
        match arguments with
        | [] => setStatus 0
        | program :: rest =>
          runProgram fuel "exec: " program rest
          throw (.exit (← get).status)
      | "." =>
        match arguments with
        | [] => refuse ".: filename argument required"
        | file :: _ =>
          if !file.toList.contains '/' then refuse (".: " ++ file ++ ": not found")
          match (← get).files.readText ⟨file⟩ with
          | .ok text =>
            let before ← get
            fun state => match runScript fuel (file ++ ": ") text { state with loops := 0 } with
              | .ok () after => .ok () { after with loops := before.loops }
              | .error (.return code) after =>
                .ok () { after with loops := before.loops, status := code }
              | result => result
          | .error fault =>
            refuse (".: cannot open " ++ file ++ ": " ++
              (if fault = .notFound then "No such file" else fault.wording))
      | "type" => locateAll true (· ++ ": not found") arguments
      | "command" =>
        match commandWords arguments with
        | (some full, names) =>
          locateAll full (fun name => if full then name ++ ": not found" else "") (names.take 1)
        | (none, program :: rest) => runPlain fuel program rest
        | (none, []) => setStatus 0
      | _ => runProgram fuel "" name arguments

/-- Send a signal to the script itself or to jobs. -/
def runKill (fuel : Nat) (arguments : List String) : Act Unit := do
  match fuel with
  | 0 => throw .tired
  | fuel + 1 =>
    let state ← get
    let (signal?, targets) := match arguments with
      | "-s" :: name :: targets => (signal? name, targets)
      | "-l" :: _ => (some 0, [])
      | word :: targets =>
        if Tool.isOption word then (signal? (String.ofList (word.toList.drop 1)), targets)
        else (some 15, word :: targets)
      | [] => (none, [])
    let numbers := targets.filterMap String.toNat?
    let isJob (n : Nat) : Bool := state.jobs.any fun job => job.number + selfNumber == n
    match signal? with
    | none =>
      complain ("kill: Usage: kill [-s sigspec | -signum | -sigspec] [pid | job]... or\n" ++
        "kill -l [exitstatus]")
      setStatus 2
    | some signal =>
      if numbers.contains selfNumber ∧ signal ≠ 0 then
        match if signal = 9 then none else state.traps.lookup signal with
        | none => throw (.killed signal)
        | some action =>
          setStatus 0
          runScript fuel "" action
      else if numbers.all fun n => n == selfNumber || isJob n then
        if signal ≠ 0 then
          modify fun state =>
            numbers.foldl (fun state n => state.endJob (n - selfNumber) signal) state
        setStatus 0
      else
        complain "kill: No such process\n"
        setStatus 1

/-- Run a command; `checked` says whether its failure ends a strict script. -/
def run (fuel : Nat) (checked : Bool) (command : Command) : Act Unit := do
  match fuel with
  | 0 => throw .tired
  | fuel + 1 =>
    let check : Act Unit := do
      let state ← get
      if checked ∧ state.strict ∧ state.status ≠ 0 then throw (.exit state.status)
    match command with
    | .simple line assignments words redirections =>
      modify fun state => { state with line := line }
      runSimple fuel assignments words redirections
      check
    | .group inside body =>
      if inside then apart (runAll fuel body) else runAll fuel body
      check
    | .redirected line body redirections =>
      modify fun state => { state with line := line }
      withStreams fuel redirections (run fuel checked body) (pure ())
      check
    | .choice branches => choose fuel branches
    | .loop negated condition body =>
      let before ← get
      set { before with loops := before.loops + 1 }
      let status ← runLoop fuel negated 0 condition body
      modify fun state => { state with loops := before.loops, status := status }
    | .forEach line name words? body =>
      modify fun state => { state with line := line }
      let words ← match words? with
        | some words => expandAll fuel words
        | none => pure (← get).arguments
      let before ← get
      set { before with status := 0, loops := before.loops + 1 }
      runEach fuel name words body
      modify fun state => { state with loops := before.loops }
    | .select line word cases =>
      modify fun state => { state with line := line }
      let text ← expandOne fuel word
      modify fun state => { state with status := 0 }
      runSelected fuel text cases
    | .define name body =>
      modify fun state => { state with
        functions := (name, [body]) :: state.functions, status := 0 }
    | .pipeline negated commands =>
      if negated then
        runTested fuel [.pipeline false commands]
        modify fun state => { state with status := if state.status = 0 then 1 else 0 }
      else
        runPiped fuel commands
        check
    | .beside body => beside (run fuel false body)
    | .next onFailure first second =>
      runTested fuel [first]
      let state ← get
      if (state.status ≠ 0) = onFailure then run fuel checked second

/-- Run a command that is made of words. -/
def runSimple (fuel : Nat) (assignments : List (String × Word)) (words : List Word)
    (redirections : List Redirection) : Act Unit := do
  match fuel with
  | 0 => throw .tired
  | fuel + 1 =>
    modify fun state => { state with lastOutput := none }
    match ← expandAll fuel words with
    | [] =>
      withStreams fuel redirections (do
        let given ← assignAll fuel assignments
        let state ← get
        if state.traced ∧ ¬ given.isEmpty then
          set (state.emit state.err (Tool.lineBytes ("+ " ++ " ".intercalate given)))
        setStatus (state.lastOutput.getD 0)) (pure ())
    | name :: arguments =>
      let isFixed := fixedNames.contains name
      let refused : Act Unit := if isFixed then throw (.exit 2) else pure ()
      if name = "exec" ∧ arguments.isEmpty then
        if ← redirect fuel redirections then setStatus 0 else throw (.exit 2)
      else
        let before ← get
        let names := assignments.map Prod.fst
        let act : Act Unit := do
          let given ← assignAll fuel assignments
          if !isFixed then modify fun state => names.foldl State.exportName state
          let state ← get
          if state.traced then
            let shown := Tool.lineBytes ("+ " ++ " ".intercalate (given ++ name :: arguments))
            set (state.emit before.err shown)
          runWords fuel name arguments
        withStreams fuel redirections act refused
        if !isFixed then modify (·.restore before names)

/-- Give variables their values; each is told. -/
def assignAll (fuel : Nat) (assignments : List (String × Word)) : Act (List String) := do
  match fuel, assignments with
  | 0, _ => throw .tired
  | _, [] => return []
  | fuel + 1, (name, word) :: rest =>
    let value ← expandOne fuel word
    assign name value
    return (name ++ "=" ++ value) :: (← assignAll fuel rest)

/-- Run the first body whose condition holds. -/
def choose (fuel : Nat) (branches : List (List Command × List Command)) : Act Unit := do
  match fuel, branches with
  | 0, _ => throw .tired
  | _, [] => setStatus 0
  | fuel + 1, ([], body) :: _ => runAll fuel body
  | fuel + 1, (condition, body) :: rest =>
    runTested fuel condition
    if (← get).status = 0 then runAll fuel body else choose fuel rest

/-- Run the body of a loop once; tells whether the loop goes on. -/
def runBody (fuel : Nat) (body : List Command) : Act Bool := do
  match fuel with
  | 0 => throw .tired
  | fuel + 1 => fun state =>
    let inside (after : State) : State := { after with loops := state.loops }
    match runAll fuel body state with
    | .ok () after => .ok true after
    | .error (.leave n) after =>
      if 1 < n then .error (.leave (n - 1)) after else .ok false (inside after)
    | .error (.again n) after =>
      if 1 < n then .error (.again (n - 1)) after else .ok true (inside after)
    | .error halt after => .error halt after

/-- Run a body as long as a condition holds, or as long as it does not; gives the exit code
of the last run. -/
def runLoop (fuel : Nat) (negated : Bool) (status : Nat) (condition body : List Command) :
    Act Nat := do
  match fuel with
  | 0 => throw .tired
  | fuel + 1 =>
    let before ← get
    set { before with strict := false }
    let isAsked ← runBody fuel condition
    modify fun state => { state with strict := before.strict }
    if isAsked ∧ ((← get).status = 0) = !negated then
      let goesOn ← runBody fuel body
      let status := (← get).status
      if goesOn then runLoop fuel negated status condition body else return status
    else return status

/-- Run a body for each word. -/
def runEach (fuel : Nat) (name : String) (words : List String) (body : List Command) :
    Act Unit := do
  match fuel, words with
  | 0, _ => throw .tired
  | _, [] => return ()
  | fuel + 1, word :: rest =>
    assign name word
    if ← runBody fuel body then runEach fuel name rest body

/-- Run the first body with a pattern that a text matches. -/
def runSelected (fuel : Nat) (text : String) (cases : List (List Word × List Command)) :
    Act Unit := do
  match fuel, cases with
  | 0, _ => throw .tired
  | _, [] => return ()
  | fuel + 1, (patterns, body) :: rest =>
    if ← matchesAny fuel text patterns then runAll fuel body else runSelected fuel text rest

/-- Whether a text matches one of some patterns. -/
def matchesAny (fuel : Nat) (text : String) (patterns : List Word) : Act Bool := do
  match fuel, patterns with
  | 0, _ => throw .tired
  | _, [] => return false
  | fuel + 1, word :: rest =>
    let fields ← expandParts fuel "" word .none
    if fits (fields.all.headD []) text.toList then return true
    else matchesAny fuel text rest

/-- Run commands each of which reads what the one before it writes. -/
def runPiped (fuel : Nat) (commands : List Command) : Act Unit := do
  match fuel, commands with
  | 0, _ => throw .tired
  | _, [] => return ()
  | fuel + 1, [last] => apart (run fuel false last)
  | fuel + 1, first :: rest =>
    let written ← captured true (survived (apart (run fuel false first)))
    let state ← get
    set { state with input := written }
    runPiped fuel rest
    modify fun after => { after with input := state.input }

end

/-- How many steps a program may take, one inside another. -/
def stepLimit : Nat := 100000

/-- Run a program that nothing else runs: how it ends, and the state it leaves. -/
def launch (call : Call) (before : State) : Status × State :=
  match runCall stepLimit call before with
  | .ok () after => (.exited after.status, after)
  | .error (.killed signal) after => (.killed signal, after)
  | .error (.exit code) after => (.exited code, after)
  | .error (.return code) after => (.exited code, after)
  | .error _ after => (.endless, after)

end FlameFold.Machine.Shell
