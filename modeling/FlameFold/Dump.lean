import FlameFold.Session
import FlameFold.Text.Lines

/-!
# Dumping a recording

The dump tool prints the sampled stacks of a recording as text.
-/

namespace FlameFold.Dump

/-- What is asked of the dump tool. -/
structure Request where
  /-- The program. -/
  tool : String
  /-- The recording. -/
  recording : Path
  /-- The name of the sampled event. -/
  event : String
  /-- The greatest depth of a stack. -/
  stackDepth : UInt32
  /-- How long the tool may run. -/
  limit : Option Duration

/-- The call of the dump tool. -/
def Request.invocation (request : Request) : Program.Invocation where
  program := request.tool
  arguments := ["print", "--events", request.event, "--stack-depth",
    Nat.repr request.stackDepth.toNat, request.recording.text]
  input := none
  limit := request.limit

/-- Why a recording was not dumped. -/
inductive Failure where
  /-- The tool ended, and not well. -/
  | toolFailed (status written complaints : String)
  /-- The tool gave no output. -/
  | notRun (failure : Program.Failure)
  deriving DecidableEq, Repr

/-- The wording of the failure. -/
def Failure.message : Failure → String
  | .toolFailed status _ _ => "Dump tool exited with " ++ status
  | .notRun failure => failure.message

/-- The fault of the system behind the failure. -/
def Failure.cause? : Failure → Option SystemFault
  | .toolFailed _ _ _ => none
  | .notRun failure => failure.cause?

/-- The text of a dump that ended well. -/
def textOf (output : Program.Output) : Except Failure String :=
  if output.succeeded then .ok output.writtenText
  else .error (.toolFailed output.status output.writtenText output.complaintsText)

/-- Dump a recording; gives the text of the dump. -/
def dump (runner : Runner) (request : Request) : Step (Except Failure String) := do
  Session.note .info .dumping
    ("Converting " ++ request.recording.text ++ " to collapsed format...")
  match ← Session.call runner request.invocation with
  | .error failure => return .error (.notRun failure)
  | .ok output =>
    match textOf output with
    | .error failure => return .error failure
    | .ok text =>
      Session.note .debug .dumping
        ("Dump produced " ++ Nat.repr (Text.lines text).length ++ " lines")
      return .ok text

end FlameFold.Dump
