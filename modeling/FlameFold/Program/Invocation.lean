import FlameFold.Duration
import FlameFold.SystemFault
import FlameFold.Text.Utf8

/-!
# Invocations

A call of another program, what the program gave when it ended, and why it could
not be brought to an end.
-/

namespace FlameFold.Program

/-- A call of a program. -/
structure Invocation where
  /-- The name or path of the program. -/
  program : String
  /-- Its arguments. -/
  arguments : List String
  /-- The bytes it can read, if it is given any. -/
  input : Option (List UInt8)
  /-- How long it may run, if it may not run for ever. -/
  limit : Option Duration
  deriving DecidableEq, Repr

/-- The program and its arguments with spaces between them. -/
def Invocation.display (call : Invocation) : String :=
  " ".intercalate (call.program :: call.arguments)

/-- What a program gave when it ended. -/
structure Output where
  /-- Its exit code; a program ended by a signal has none. -/
  code : Option Int
  /-- What it wrote. -/
  written : List UInt8
  /-- What it wrote as complaints. -/
  complaints : List UInt8
  deriving DecidableEq, Repr

namespace Output

/-- Whether the program ended well. -/
def succeeded (output : Output) : Bool := output.code == some 0

/-- How the program ended, in words. -/
def status (output : Output) : String :=
  match output.code with
  | some code => "exit code " ++ Int.repr code
  | none => "signal"

/-- What it wrote, as text. -/
def writtenText (output : Output) : String := Text.decodeLossy output.written

/-- What it wrote as complaints, as text. -/
def complaintsText (output : Output) : String := Text.decodeLossy output.complaints

end Output

/-- Why a program gave no output. -/
inductive Failure where
  /-- It could not be started. -/
  | notStarted (program : String) (cause : SystemFault)
  /-- It was still running at its limit. -/
  | timedOut (program : String) (limit : Duration)
  /-- It could not be read from, written to or waited for. -/
  | broken (program : String) (cause : SystemFault)
  deriving DecidableEq, Repr

/-- The wording of the failure. -/
def Failure.message : Failure → String
  | .notStarted program cause => "Failed to start `" ++ program ++ "`: " ++ cause.message
  | .timedOut program limit =>
    "`" ++ program ++ "` timed out after " ++ limit.secondsText ++ "s"
  | .broken program cause =>
    "IO error while talking to `" ++ program ++ "`: " ++ cause.message

/-- The fault of the system behind the failure. -/
def Failure.cause? : Failure → Option SystemFault
  | .notStarted _ cause => some cause
  | .timedOut _ _ => none
  | .broken _ cause => some cause

end FlameFold.Program
