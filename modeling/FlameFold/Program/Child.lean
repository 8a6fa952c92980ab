import FlameFold.Program.Deadline
import FlameFold.Session

/-!
# Running a program

A call starts its program, hands over the input and takes what it writes while it waits for
its end. A program may end without having read all of its input. One that is not at its end
by its limit is stopped, and what it wrote is lost. After the end of a program the call waits for
its pipes without a limit; another program that holds an end of one can keep it open for ever.
-/

namespace FlameFold.Program

/-- A program that has been started, and what becomes of it. -/
structure Child where
  /-- What the looks at it find, if its time is limited; it ends with an exit code or by a
  signal. -/
  watch : Watch (Option Int)
  /-- The largest number of seconds that the clock can show. -/
  lastSecond : Nat
  /-- What waiting for it without a limit comes to; nothing if it never ends. -/
  ending : Option (Except SystemFault (Option Int))
  /-- Whether its input can be handed over; nothing if that never comes to an end. -/
  fed : Option (Except SystemFault Unit)
  /-- What is taken of what it writes; nothing if that never comes to an end. -/
  written : Option (Except SystemFault (List UInt8))
  /-- What is taken of its complaints; nothing if they never come to an end. -/
  complaints : Option (Except SystemFault (List UInt8))

/-- How the call of a program goes. -/
structure Course where
  /-- The records written. -/
  records : List Log.Record
  /-- What the program gave, or why it gave nothing. -/
  result : Except Breakdown (Except Failure Output)

/-- The records about a program that gave nothing. -/
def Failure.records : Failure → List Log.Record
  | .timedOut program limit =>
    [⟨.warn, .processes, "Killing `" ++ program ++ "` after " ++ limit.unitText⟩]
  | .notStarted _ _ => []
  | .broken _ _ => []

namespace Child

/-- Whether the deadline of the program lies beyond the end of the clock. -/
def passesClock (child : Child) (limit : Duration) : Bool :=
  decide (child.lastSecond < child.watch.deadline limit / Duration.second)

/-- Wait for the program as its call says. -/
def await (child : Child) (call : Invocation) : Except Breakdown (Except Failure (Option Int)) :=
  match call.limit with
  | some limit =>
    if child.passesClock limit then .error .clockOverflow
    else .ok (call.settle limit (child.watch.wait limit).result)
  | none =>
    match child.ending with
    | none => .error .endless
    | some (.ok code) => .ok (.ok code)
    | some (.error cause) => .ok (.error (.broken call.program cause))

/-- Take what was waited for. -/
def arrived {α : Type} : Option α → Except Breakdown α
  | some awaited => .ok awaited
  | none => .error .endless

/-- Whether the program has ended without having read all of the input that it was given. -/
def closedEarly (child : Child) (call : Invocation) : Except Breakdown (Except SystemFault Bool) :=
  match call.input with
  | none => .ok (.ok false)
  | some _ => do
    match ← arrived child.fed with
    | .ok () => return .ok false
    | .error cause => return if cause = .brokenPipe then .ok true else .error cause

/-- What the program gave, having ended with this exit code. -/
def output (child : Child) (code : Option Int) :
    Except Breakdown (Except SystemFault Output) := do
  match ← arrived child.written with
  | .error cause => return .error cause
  | .ok written =>
    match ← arrived child.complaints with
    | .error cause => return .error cause
    | .ok complaints => return .ok ⟨code, written, complaints⟩

/-- Take what a program gave that has ended with this exit code. -/
def collect (child : Child) (call : Invocation) (code : Option Int) :
    Except Breakdown (List Log.Record × Except Failure Output) := do
  let debug (text : String) : Log.Record := ⟨.debug, .processes, text⟩
  let named := "`" ++ call.program ++ "`"
  match ← child.closedEarly call with
  | .error cause => return ([], .error (.broken call.program cause))
  | .ok early =>
    let records := if early then [debug (named ++ " closed stdin early")] else []
    match ← child.output code with
    | .error cause => return (records, .error (.broken call.program cause))
    | .ok output =>
      return (records ++ [debug (named ++ " finished with " ++ output.status ++ " (" ++
        Nat.repr output.written.length ++ " bytes stdout, " ++
        Nat.repr output.complaints.length ++ " bytes stderr)")], .ok output)

end Child

/-- Run the program of a call that could be started, or could not. -/
def Invocation.run (call : Invocation) (started : Except SystemFault Child) : Course :=
  let opening : List Log.Record := [⟨.debug, .processes, "Running: " ++ call.display⟩]
  match started with
  | .error cause => ⟨opening, .ok (.error (.notStarted call.program cause))⟩
  | .ok child =>
    match child.await call with
    | .error breakdown => ⟨opening, .error breakdown⟩
    | .ok (.error failure) => ⟨opening ++ failure.records, .ok (.error failure)⟩
    | .ok (.ok code) =>
      match child.collect call code with
      | .error breakdown => ⟨opening, .error breakdown⟩
      | .ok (records, result) => ⟨opening ++ records, .ok result⟩

end FlameFold.Program
