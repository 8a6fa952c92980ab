import FlameFold.CommandLine.Complaint
import FlameFold.CommandLine.Help
import FlameFold.Conversion.Run
import FlameFold.Log.Filter
import FlameFold.Output.Collapsed
import FlameFold.Output.ReportFile
import FlameFold.Stack.Folder

/-!
# Running a command line

Each command is a step of a session. What a run leaves behind is its exit code, what it
printed, what it complained about with the records that are shown, and the files.
-/

namespace FlameFold.CommandLine

/-- What surrounds a run. -/
structure Surroundings where
  /-- The variables of the environment. -/
  environment : Environment
  /-- The bytes that can be read as input. -/
  input : List UInt8
  /-- The time, as reports show it. -/
  now : String
  /-- What answers the calls of programs. -/
  runner : Runner

/-- What a run leaves behind. -/
structure Outcome where
  /-- The exit code. -/
  code : Nat
  /-- What was printed. -/
  printed : List UInt8
  /-- The records that were shown, and complaints. -/
  complaints : List UInt8
  /-- The files. -/
  files : FileSystem

/-- Convert recordings, and write a report if one is wanted. -/
def convert (around : Surroundings) (options : Options) : Step (Except Complaint Unit) := do
  match ← options.overrides.effective with
  | .error failure => return .error (.ofSettings failure)
  | .ok settings =>
    match ← Conversion.run settings around.runner with
    | .error failure => return .error (.ofSettings failure)
    | .ok summary =>
      match options.report with
      | none => return .ok ()
      | some p =>
        let written ← Output.writeReport (Report.ofSummary around.now summary) p
        return written.mapError (Complaint.ofOutput "Failed to write run report")

/-- The path that stands for the input. -/
def inputMark : Path := ⟨"-"⟩

/-- Read the text of a dump. -/
def readDump (around : Surroundings) (p : Path) : Step (Except Complaint String) := do
  if p = inputMark then
    match Text.decode? around.input with
    | some text => return .ok text
    | none => return .error ⟨"Failed to read dump from stdin", [SystemFault.notText.message]⟩
  else
    let read ← Session.view (·.readText p)
    return read.mapError fun cause => ⟨"Failed to read dump " ++ p.text, [cause.message]⟩

/-- Print a table or write it to a file. -/
def deliver (table : Stack.CountTable) : Option Path → Step (Except Complaint Unit)
  | none => do
    Session.print (String.join (table.sorted.map fun entry => entry.line ++ "\n"))
    return .ok ()
  | some p => do
    match ← Output.writeCollapsed table p with
    | .ok _ => return .ok ()
    | .error failure => return .error (.ofOutput "Failed to write collapsed stacks" failure)

/-- Fold the text of a dump. -/
def foldDump (around : Surroundings) (options : Options) : Step (Except Complaint Unit) := do
  match ← readDump around (options.dumpInput.getD inputMark) with
  | .error complaint => return .error complaint
  | .ok text =>
    let folded := Stack.fold text (options.sampleEvent.getD Settings.standard.event)
    Session.noteAll folded.records
    deliver folded.table options.foldedOutput

/-- Print the settings as a document. -/
def showSettings (options : Options) : Step (Except Complaint Unit) := do
  match ← options.overrides.effective with
  | .error failure => return .error (.ofSettings failure)
  | .ok settings =>
    match settings.write with
    | .error fault => return .error ⟨"Failed to serialize config", [fault.message]⟩
    | .ok document =>
      Session.print document
      return .ok ()

/-- Do what a request asks for. -/
def perform (around : Surroundings) (request : Request) : Step (Except Complaint Unit) :=
  match request.level with
  | .fold => foldDump around request.options
  | .config => showSettings request.options
  | _ => convert around request.options

/-- The environment variable that says which records are shown. -/
def filterVariable : String := "RUST_LOG"

/-- The filter of a run, and the complaints about it. -/
def filterOf (environment : Environment) (verbose : Bool) : Log.Filter × String :=
  match List.lookup filterVariable environment with
  | some text => Log.Filter.parse text
  | none => (.upTo (if verbose then .debug else .info), "")

/-- The records that a filter shows. -/
def shownLog (filter : Log.Filter) (log : List Log.Record) : String :=
  String.join ((log.filter filter.shows).map fun record =>
    Text.Terminal.withoutControls record.line)

/-- The complaint about a run that broke down. -/
def breakdownText : Breakdown → String
  | .clockOverflow => "the deadline lies beyond the end of the clock\n"
  | .endless => "a program does not end\n"

/-- The records that a filter shows, with what was complained among them; `passed` records
came before the first of these. -/
def complained (filter : Log.Filter) (passed : Nat) :
    List (Nat × List UInt8) → List Log.Record → List UInt8
  | [], log => Text.encode (shownLog filter log)
  | (place, bytes) :: rest, log =>
    Text.encode (shownLog filter (log.take (place - passed))) ++ bytes ++
      complained filter place rest (log.drop (place - passed))

/-- What a session leaves behind when it has ended. -/
def conclude (filter : Log.Filter) (warnings : String) (code : Nat) (last : String)
    (session : Session) : Outcome :=
  let complaints := complained filter 0 session.interjections session.log
  ⟨code, session.printed, Text.encode warnings ++ complaints ++ Text.encode last, session.files⟩

/-- Run a request. -/
def runRequest (around : Surroundings) (files : FileSystem) (request : Request) : Outcome :=
  let (filter, warnings) := filterOf around.environment request.options.verbose
  match (perform around request).run (Session.start files) with
  | .ok (.ok ()) session => conclude filter warnings 0 "" session
  | .ok (.error complaint) session => conclude filter warnings 1 complaint.text session
  | .error breakdown session => conclude filter warnings 101 (breakdownText breakdown) session

/-- The complaint about a command line, for a terminal. -/
def faultText (fault : Fault) : String :=
  Text.Terminal.bold "error:" ++ " " ++ fault.message ++ "\n\nFor more information, try '" ++
    Text.Terminal.bold "--help" ++ "'.\n"

/-- Answer a command line that runs nothing. -/
def answerStop (environment : Environment) (files : FileSystem) (stop : Stop) : Outcome :=
  let bytes (text : String) := Text.encode (Text.Terminal.withoutControls text)
  match stop with
  | .fault fault => ⟨2, [], bytes (faultText fault), files⟩
  | .help level => ⟨0, bytes (Help.text environment level), [], files⟩
  | .version => ⟨0, bytes (programName ++ " " ++ programVersion ++ "\n"), [], files⟩

/-- Give the input of a run to the devices that stand for it. -/
def withInput (content : List UInt8) (files : FileSystem) : FileSystem :=
  { files with nodes := files.nodes.map fun (place, node) =>
      match node with
      | .device (.input _) => (place, .device (.input content))
      | other => (place, other) }

/-- Run a command line. -/
def run (around : Surroundings) (files : FileSystem) (words : List String) : Outcome :=
  let files := withInput around.input files
  match Request.parse around.environment words with
  | .ok request => runRequest around files request
  | .error stop => answerStop around.environment files stop

end FlameFold.CommandLine
