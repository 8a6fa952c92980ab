import FlameFold.Machine.Lookup
import FlameFold.Machine.Shell.Field
import FlameFold.Machine.Shell.Script

/-!
# The state of a shell

What the commands of a script share: the files, the streams, the variables and the time. A
job runs beside the commands that come after it; every stretch of output carries the time at
which it was written, so that the streams can be put in order at the end.
-/

namespace FlameFold.Machine.Shell

/-- Where a stream goes. -/
inductive Sink where
  /-- To the output of the whole program. -/
  | output
  /-- To the complaints of the whole program. -/
  | complaints
  /-- To the end of a file. -/
  | file (p : Path)
  /-- Nowhere. -/
  | nowhere
  /-- To where there is no room. -/
  | full
  /-- To a stream that has been closed. -/
  | closed
  deriving DecidableEq, Repr

/-- A stretch of bytes that was written. -/
structure Chunk where
  /-- When it was written, in nanoseconds. -/
  time : Nat
  /-- After how many waits it was written: what was waited for comes first. -/
  turn : Nat
  /-- The number of the job that wrote it; the script itself has the number zero. -/
  writer : Nat
  /-- Whether it is a complaint. -/
  complains : Bool
  /-- The bytes. -/
  bytes : List UInt8
  deriving DecidableEq, Repr

/-- Commands that run beside others. -/
structure Job where
  /-- Its number, from one on. -/
  number : Nat
  /-- The number of the job that started it. -/
  parent : Nat
  /-- When it ends, if it does. -/
  finish : Option Nat
  /-- The exit code with which it ends. -/
  status : Nat
  /-- The signal that ended it, if one did. -/
  signal : Option Nat
  deriving DecidableEq, Repr

/-- What the commands of a script share. -/
structure State where
  /-- The files. -/
  files : FileSystem
  /-- The input that has not been read. -/
  input : List UInt8
  /-- What has been written, the last stretch first. -/
  written : List Chunk
  /-- How many nanoseconds have been slept. -/
  slept : Nat
  /-- How many times jobs have been waited for. -/
  turn : Nat
  /-- What the variables stand for. -/
  values : List (String × String)
  /-- The variables that programs are told. -/
  exported : List String
  /-- The variables that keep their values. -/
  fixed : List String
  /-- The variables of the named command that runs, with what they stood for before. -/
  locals : Option (List (String × Option String))
  /-- The name of the script. -/
  self : String
  /-- The arguments of the script. -/
  arguments : List String
  /-- The exit code of the last command. -/
  status : Nat
  /-- The exit code of the last commands whose output stood in a word, if any did. -/
  lastOutput : Option Nat
  /-- The number of the line of the command that runs. -/
  line : Nat
  /-- How many loops the command that runs stands in. -/
  loops : Nat
  /-- The commands that the script has named. -/
  functions : List (String × List Command)
  /-- What is to be done at signals; the signal 0 is the end of the script. -/
  traps : List (Nat × String)
  /-- Where the output goes. -/
  out : Sink
  /-- Where complaints go. -/
  err : Sink
  /-- Where the streams after these two go. -/
  others : List (Nat × Sink)
  /-- Whether a program reads the output that may end before all is written. -/
  piped : Bool
  /-- Whether no shell waits for the program. -/
  alone : Bool
  /-- Whether a command that does not end well ends the script. -/
  strict : Bool
  /-- Whether a variable without a value ends the script. -/
  careful : Bool
  /-- Whether each command is shown before it runs. -/
  traced : Bool
  /-- The time, in nanoseconds, at which the script is stopped, if it is. -/
  patience : Option Nat
  /-- The number of the job whose commands run. -/
  job : Nat
  /-- The jobs that have been started, the last one first. -/
  jobs : List Job
  /-- The number of the job that was started last by the script. -/
  lastJob : Option Nat

/-- What ends more than one command. -/
inductive Halt where
  /-- The script ends. -/
  | exit (code : Nat)
  /-- A signal ends the script. -/
  | killed (signal : Nat)
  /-- The script does not end. -/
  | endless
  /-- The script has taken all the steps that it may take. -/
  | tired
  /-- Some loops end. -/
  | leave (loops : Nat)
  /-- Some loops but one end, and that one goes on. -/
  | again (loops : Nat)
  /-- A named command ends. -/
  | return (code : Nat)
  deriving DecidableEq, Repr

/-- A step of a script. -/
abbrev Act := EStateM Halt State

/-- The number under which a script knows itself; its jobs have those after it. -/
def selfNumber : Nat := 4242

namespace State

/-- Write bytes to a stream. -/
def emit (state : State) (sink : Sink) (bytes : List UInt8) : State :=
  let note (complains : Bool) : State :=
    if bytes.isEmpty then state
    else
      let chunk := ⟨state.slept, state.turn, state.job, complains, bytes⟩
      { state with written := chunk :: state.written }
  match sink with
  | .output => note false
  | .complaints => note true
  | .nowhere | .full | .closed => state
  | .file p =>
    match state.files.read p with
    | .ok before => match state.files.write p (before ++ bytes) with
      | .ok files => { state with files := files }
      | .error _ => state
    | .error _ => state

/-- Where a stream goes that is sent to what stands at a path. -/
def sinkAt (state : State) (p : Path) : Sink :=
  match state.files.find? p with
  | some (.device .output) => state.out
  | some (.device .complaints) => state.err
  | some (.device .full) => .full
  | some (.device _) => .nowhere
  | _ => .file p

/-- Where a stream goes, if it is open. -/
def sink? (state : State) (stream : Nat) : Option Sink :=
  match stream with
  | 1 => some state.out
  | 2 => some state.err
  | _ => state.others.lookup stream

/-- Let a stream go elsewhere. -/
def withSink (state : State) (stream : Nat) (sink : Sink) : State :=
  match stream with
  | 0 => state
  | 1 => { state with out := sink }
  | 2 => { state with err := sink }
  | _ => { state with
    others := (stream, sink) :: state.others.filter fun entry => entry.1 != stream }

/-- What refuses bytes for the output. -/
def refusal? (state : State) : Option SystemFault :=
  match state.out with
  | .full => some .noRoom
  | .closed => some .closedStream
  | _ => none

/-- The separators at which values are cut. -/
def separators (state : State) : String := (state.values.lookup "IFS").getD usualSeparators

/-- The bytes of one stream in the order in which they were written. -/
def stream (state : State) (complains : Bool) : List UInt8 :=
  let chunks := state.written.reverse.filter fun chunk => chunk.complains == complains
  let sorted := if state.jobs.isEmpty then chunks
    else chunks.mergeSort fun a b => a.time < b.time ||
      (a.time == b.time && (a.turn < b.turn || (a.turn == b.turn && a.writer ≤ b.writer)))
  sorted.flatMap Chunk.bytes

/-- The value of a variable or of one of the special names. -/
def value? (state : State) (name : String) : Option String :=
  match name with
  | "?" => some (Nat.repr state.status)
  | "#" => some (Nat.repr state.arguments.length)
  | "$" => some (Nat.repr selfNumber)
  | "!" => state.lastJob.map fun number => Nat.repr (selfNumber + number)
  | "-" => some ""
  | "@" => some (" ".intercalate state.arguments)
  | "*" => some ((String.ofList (state.separators.toList.take 1)).intercalate state.arguments)
  | "0" => some state.self
  | _ => match name.toNat? with
    | some n => state.arguments[n - 1]?
    | none => state.values.lookup name

/-- Give a variable a value. -/
def assign (state : State) (name value : String) : State :=
  { state with values := (name, value) :: state.values.filter fun entry => entry.1 != name }

/-- Forget variables. -/
def forget (state : State) (names : List String) : State :=
  { state with
    values := state.values.filter fun entry => !names.contains entry.1
    exported := state.exported.filter (!names.contains ·) }

/-- Tell programs a variable. -/
def exportName (state : State) (name : String) : State :=
  if state.exported.contains name then state
  else { state with exported := name :: state.exported }

/-- Give some variables the values back that they had, and tell programs what they were told. -/
def restore (state before : State) (names : List String) : State :=
  let kept := state.values.filter fun entry => !names.contains entry.1
  let toldBefore := before.exported.filter names.contains
  { state with
    values := before.values.filter (fun entry => names.contains entry.1) ++ kept
    exported := state.exported.filter (!names.contains ·) ++ toldBefore }

/-- The state in which a program starts. -/
def start (files : FileSystem) (input : List UInt8) (patience : Option Nat) : State where
  files := files
  input := input
  written := []
  slept := 0
  turn := 0
  values := []
  exported := []
  fixed := []
  locals := none
  self := ""
  arguments := []
  status := 0
  lastOutput := none
  line := 0
  loops := 0
  functions := []
  traps := []
  out := .output
  err := .complaints
  others := []
  piped := false
  alone := true
  strict := false
  careful := false
  traced := false
  patience := patience
  job := 0
  jobs := []
  lastJob := none

/-- Whether the time at which the script is stopped has come. -/
def isOver (state : State) : Bool := state.patience.any (· ≤ state.slept)

/-- The jobs that were started after some that had been started before. -/
def jobsSince (state : State) (before : List Job) : List Job :=
  state.jobs.take (state.jobs.length - before.length)

/-- End a job by a signal now, if it is still running. -/
def endJob (state : State) (number signal : Nat) : State :=
  let running (job : Job) : Bool := job.number == number && job.finish.all (state.slept < ·)
  if state.jobs.any running then
    { state with
      jobs := state.jobs.map fun job =>
        if running job then
          { job with
            finish := some state.slept
            status := 128 + signal
            signal := some signal }
        else job
      written := state.written.filter fun chunk =>
        chunk.writer != number || decide (chunk.time ≤ state.slept) }
  else state

end State

/-- Write a complaint with the name of the script and the number of a line. -/
def complainAt (line : Nat) (text : String) : Act Unit :=
  modify fun state => state.emit state.err
    (Tool.lineBytes (state.self ++ ": " ++ Nat.repr line ++ ": " ++ text))

/-- Write a complaint about the command that runs. -/
def complain (text : String) : Act Unit := do complainAt (← get).line text

/-- Write a complaint about the command that runs, and end the script. -/
def refuse (text : String) : Act α := do
  complain text
  throw (.exit 2)

/-- Give a variable a value, unless it keeps its own. -/
def assign (name value : String) : Act Unit := do
  if (← get).fixed.contains name then refuse (name ++ ": is read only")
  else modify (·.assign name value)

/-- Set the exit code. -/
def setStatus (code : Nat) : Act Unit := modify fun state => { state with status := code }

/-- Run a step in a state of its own; what it does to files, streams and time remains, and so
do the jobs that it starts. -/
def apart (act : Act Unit) : Act Unit := fun before =>
  let keep (after : State) (status : Nat) : State :=
    { before with
      files := { after.files with here := before.files.here }
      input := after.input
      written := after.written
      slept := after.slept
      turn := after.turn
      jobs := after.jobs
      status := status }
  let inner := { before with traps := before.traps.filter fun entry => entry.2.isEmpty }
  match act inner with
  | .ok () after => .ok () (keep after after.status)
  | .error (.exit code) after => .ok () (keep after code)
  | .error (.return code) after => .ok () (keep after code)
  | .error (.leave _) after => .ok () (keep after 0)
  | .error (.again _) after => .ok () (keep after 0)
  | .error halt after => .error halt (keep after 0)

/-- What a shell says about a program that a signal ended. -/
def signalText (signal : Nat) : String :=
  match signal with
  | 1 => "Hangup"
  | 3 => "Quit"
  | 6 => "Aborted"
  | 9 => "Killed"
  | 11 => "Segmentation fault"
  | 14 => "Alarm clock"
  | 15 => "Terminated"
  | _ => ""

/-- Say what ended a program, if a signal did that is spoken of. -/
def announce (signal : Nat) : Act Unit := do
  let text := signalText signal
  unless text.isEmpty do
    modify fun state => state.emit state.err (Tool.lineBytes text)

/-- Run a program; a signal that ends it is its own end only. -/
def survived (act : Act Unit) : Act Unit := fun before =>
  match act before with
  | .error (.killed signal) after =>
    match announce signal { after with err := before.err } with
    | .ok () after => .ok () { after with status := 128 + signal }
    | .error halt after => .error halt after
  | result => result

/-- The latest time at which one of some jobs ends; nothing if one does not end. -/
def lastFinish? (time : Nat) (jobs : List Job) : Option Nat :=
  jobs.foldl (fun latest job => do return max (← latest) (← job.finish)) (some time)

/-- Run a step and take what it writes as output, up to the end of its jobs. A step that goes
on writing is ended when nothing reads what it writes any more. -/
def captured (piped : Bool) (act : Act Unit) : Act (List UInt8) := fun before =>
  let finish (after : State) : EStateM.Result Halt State (List UInt8) :=
    let restored (time : Nat) : State := { after with
      written := after.written.filter Chunk.complains ++ before.written
      slept := time
      out := before.out
      piped := before.piped }
    match lastFinish? after.slept (after.jobsSince before.jobs) with
    | none => .error .endless (restored after.slept)
    | some time =>
      if (restored time).isOver then .error .endless (restored time)
      else .ok (after.stream false) (restored time)
  match act { before with written := [], out := Sink.output, piped := piped } with
  | .ok () after => finish after
  | .error .tired after =>
    if piped ∧ after.written.any (!·.complains) then finish { after with status := 141 }
    else .error .tired after
  | .error halt after => .error halt after

/-- Run a step as a job: beside what comes after it, without input. -/
def beside (act : Act Unit) : Act Unit := fun before =>
  let number := before.jobs.length + 1
  let job (finish : Option Nat) (status : Nat) (signal : Option Nat) : Job :=
    ⟨number, before.job, finish, status, signal⟩
  let own := { before with
    input := [], job := number, patience := none, lastJob := none
    jobs := job none 0 none :: before.jobs }
  let ended (after : State) (done : Job) : EStateM.Result Halt State Unit :=
    .ok () { before with
      files := { after.files with here := before.files.here }
      written := after.written
      jobs := after.jobs.map fun one => if one.number = number then done else one
      lastJob := some number
      status := 0 }
  match apart act own with
  | .ok () after => ended after (job (some after.slept) after.status none)
  | .error (.killed signal) after =>
    ended after (job (some after.slept) (128 + signal) (some signal))
  | .error _ after => ended after (job none 0 none)

/-- Wait for the jobs of a kind that the script started; gives the one started last. -/
def await (isMeant : Job → Bool) : Act (Option Job) := do
  let state ← get
  let meant := state.jobs.filter fun job => job.parent == state.job && isMeant job
  match lastFinish? state.slept meant with
  | none => throw .endless
  | some time =>
    let turn := state.written.foldl (fun turn chunk => max turn chunk.turn) state.turn + 1
    set { state with slept := time, turn := turn }
    if (← get).isOver then throw .endless
    return meant.head?

end FlameFold.Machine.Shell
