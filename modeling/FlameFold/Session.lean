import FlameFold.FileSystem.Change
import FlameFold.Log
import FlameFold.Program.Invocation

/-!
# Sessions

What a run has done so far: the files as it left them, the records it wrote, the
programs it called, what it printed and how long it waited. A step of a run changes the
session; a runner answers the calls of programs.
-/

namespace FlameFold

/-- What a run has done so far. -/
structure Session where
  /-- The files as they are now. -/
  files : FileSystem
  /-- The records written, the first one first. -/
  log : List Log.Record
  /-- The programs called, the first one first. -/
  calls : List Program.Invocation
  /-- The bytes printed. -/
  printed : List UInt8
  /-- The bytes complained among the records, each time with the number of records before
  them. -/
  interjections : List (Nat × List UInt8)
  /-- How long the programs ran. -/
  waited : Duration

/-- What ends a whole run at once. -/
inductive Breakdown where
  /-- A limit lies beyond the end of the clock. -/
  | clockOverflow
  /-- A program or a pipe that is waited for without a limit comes to no end. -/
  | endless
  deriving DecidableEq, Repr

/-- A step of a run. -/
abbrev Step := EStateM Breakdown Session

/-- How the call of a program came out. -/
structure Reply where
  /-- The files as the program left them. -/
  files : FileSystem
  /-- The records written while it ran. -/
  records : List Log.Record
  /-- How long it ran. -/
  took : Duration
  /-- What it gave, or why it gave nothing. -/
  result : Except Breakdown (Except Program.Failure Program.Output)

/-- What answers a call, from the files, the calls before it and the call itself. -/
abbrev Runner := FileSystem → List Program.Invocation → Program.Invocation → Reply

namespace Session

/-- A session that has done nothing. -/
def start (files : FileSystem) : Session := ⟨files, [], [], [], [], ⟨0⟩⟩

/-- Look at the files. -/
def view (look : FileSystem → α) : Step α := fun session => .ok (look session.files) session

/-- Set the files. -/
def setFiles (files : FileSystem) : Step Unit :=
  fun session => .ok () { session with files := files }

/-- Write records. -/
def noteAll (records : List Log.Record) : Step Unit :=
  fun session => .ok () { session with log := session.log ++ records }

/-- Write one record. -/
def note (level : Log.Level) (area : Log.Area) (text : String) : Step Unit :=
  noteAll [⟨level, area, text⟩]

/-- Print bytes. -/
def printBytes (bytes : List UInt8) : Step Unit :=
  fun session => .ok () { session with printed := session.printed ++ bytes }

/-- Print a text. -/
def print (text : String) : Step Unit := printBytes (Text.encode text)

/-- Complain in bytes. -/
def interject (bytes : List UInt8) : Step Unit := fun session =>
  .ok () { session with
    interjections := session.interjections ++ [(session.log.length, bytes)] }

/-- Write a file. What is written to the output or to the complaints of the program itself
goes there. -/
def write (p : Path) (content : List UInt8) : Step (Except SystemFault Unit) := do
  match ← view (·.write p content) with
  | .error cause => return .error cause
  | .ok files =>
    setFiles files
    match ← view (·.find? p) with
    | some (.device .output) => printBytes content
    | some (.device .complaints) => interject content
    | _ => return .ok ()
    return .ok ()

/-- How long the programs have run so far. -/
def timeWaited : Step Duration := fun session => .ok session.waited session

/-- Call a program. -/
def call (runner : Runner) (invocation : Program.Invocation) :
    Step (Except Program.Failure Program.Output) := fun session =>
  let reply := runner session.files session.calls invocation
  let after := { session with
    files := reply.files
    log := session.log ++ reply.records
    calls := session.calls ++ [invocation]
    waited := ⟨session.waited.nanoseconds + reply.took.nanoseconds⟩ }
  match reply.result with
  | .ok result => .ok result after
  | .error breakdown => .error breakdown after

end Session

/-- The runner that gives prepared answers at once, one for each call in turn, and changes
no file. After the last answer every program ends well and writes nothing. -/
def Runner.prepared
    (answers : List (Program.Invocation → Except Program.Failure Program.Output)) : Runner :=
  fun files calls invocation =>
    ⟨files, [], ⟨0⟩, .ok <| match answers[calls.length]? with
      | some answer => answer invocation
      | none => .ok ⟨some 0, [], []⟩⟩

end FlameFold
