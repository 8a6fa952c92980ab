import FlameFold.CommandLine.Key
import FlameFold.CommandLine.Number
import FlameFold.Settings.Overrides
import FlameFold.Text.Terminal

/-!
# Options that are given

What the options of a command line say, and setting one of them from a word. An option
can be given once, but for recordings.
-/

namespace FlameFold.CommandLine

/-- What is wrong with a command line. -/
inductive Fault where
  /-- A word has no meaning where it stands. -/
  | unexpected (word : String)
  /-- An option is given more than once. -/
  | repeated (name : String)
  /-- A key stands without a value, or with an empty one where there has to be one. -/
  | valueMissing (key : Key)
  /-- A value cannot be read. -/
  | invalidValue (key : Key) (value reason : String)
  /-- A key that must be given is not. -/
  | keyMissing (key : Key)
  deriving DecidableEq, Repr

/-- The wording of the fault, for a terminal. -/
def Fault.message : Fault → String
  | .unexpected word => "unexpected argument '" ++ word ++ "' found"
  | .repeated name => "the argument '--" ++ name ++ "' cannot be used multiple times"
  | .valueMissing key =>
    "a value is required for '" ++ key.display ++ "' but none was supplied"
  | .invalidValue key value reason =>
    "invalid value '" ++ Text.Terminal.coloured 33 value ++ "' for '" ++
      Text.Terminal.bold key.display ++ "': " ++ reason
  | .keyMissing key =>
    "the following required arguments were not provided:\n  " ++ key.display

/-- What the options say. -/
structure Options where
  /-- What takes the place of settings. -/
  overrides : Settings.Overrides
  /-- Where a report is written. -/
  report : Option Path
  /-- The file that holds a dump. -/
  dumpInput : Option Path
  /-- The file that folded stacks are written to. -/
  foldedOutput : Option Path
  /-- The name of the event that begins a sample. -/
  sampleEvent : Option String
  /-- Whether more of the log is shown. -/
  verbose : Bool
  deriving DecidableEq, Repr

namespace Options

/-- The options when nothing is given. -/
def empty : Options := ⟨.none, .none, .none, .none, .none, false⟩

/-- Whether a key has been given. -/
def isGiven (options : Options) : Key → Bool
  | .settingsFile => options.overrides.file.isSome
  | .root => options.overrides.root.isSome
  | .outputDirectory => options.overrides.outputDirectory.isSome
  | .renderer => options.overrides.rendererScript.isSome
  | .dumpTool => options.overrides.dumpTool.isSome
  | .event => options.overrides.event.isSome
  | .stackDepth => options.overrides.stackDepth.isSome
  | .title => options.overrides.title.isSome
  | .timeout => options.overrides.timeoutSeconds.isSome
  | .recording => !options.overrides.recordings.isEmpty
  | .report => options.report.isSome
  | .dumpInput => options.dumpInput.isSome
  | .foldedOutput => options.foldedOutput.isSome
  | .sampleEvent => options.sampleEvent.isSome

/-- A path in a word, which may not be empty. -/
def readPath (key : Key) (word : String) : Except Fault Path :=
  if word.isEmpty then .error (.valueMissing key) else .ok ⟨word⟩

/-- The depth of a stack in a word. -/
def readDepth (word : String) : Except Fault UInt32 :=
  match readSigned word with
  | .error fault => .error (.invalidValue .stackDepth word fault.message)
  | .ok n =>
    if 0 ≤ n ∧ n < (Nat.pow 2 32 : Nat) then .ok (UInt32.ofNat n.toNat)
    else .error (.invalidValue .stackDepth word (Int.repr n ++ " is not in 0..=4294967295"))

/-- A number of seconds in a word. -/
def readSeconds (word : String) : Except Fault UInt64 :=
  match readNatural (Nat.pow 2 64 - 1) word with
  | .error fault => .error (.invalidValue .timeout word fault.message)
  | .ok n => .ok (UInt64.ofNat n)

/-- A recording in a word. -/
def readRecording (word : String) : Except Fault Recording :=
  (Recording.ofSpec word).mapError fun fault => .invalidValue .recording word fault.message

/-- Set overrides. -/
def override (options : Options) (overrides : Settings.Overrides) : Options :=
  { options with overrides := overrides }

/-- Set what a key says, from its value. -/
def assign (options : Options) (key : Key) (word : String) : Except Fault Options :=
  let overrides := options.overrides
  match key with
  | .settingsFile => (readPath key word).map fun p =>
    options.override { overrides with file := p }
  | .root => (readPath key word).map fun p =>
    options.override { overrides with root := p }
  | .outputDirectory => (readPath key word).map fun p =>
    options.override { overrides with outputDirectory := p }
  | .renderer => (readPath key word).map fun p =>
    options.override { overrides with rendererScript := p }
  | .dumpTool => .ok (options.override { overrides with dumpTool := word })
  | .event => .ok (options.override { overrides with event := word })
  | .stackDepth => (readDepth word).map fun n =>
    options.override { overrides with stackDepth := n }
  | .title => .ok (options.override { overrides with title := word })
  | .timeout => (readSeconds word).map fun n =>
    options.override { overrides with timeoutSeconds := n }
  | .recording => (readRecording word).map fun recording =>
    options.override { overrides with recordings := overrides.recordings ++ [recording] }
  | .report => (readPath key word).map fun p => { options with report := p }
  | .dumpInput => (readPath key word).map fun p => { options with dumpInput := p }
  | .foldedOutput => (readPath key word).map fun p => { options with foldedOutput := p }
  | .sampleEvent => .ok { options with sampleEvent := word }

/-- Set what a key of the command line says. Only recordings can be given again. -/
def give (options : Options) (key : Key) (word : String) : Except Fault Options :=
  if key ≠ .recording ∧ options.isGiven key then .error (.repeated key.name)
  else options.assign key word

/-- Ask for more of the log. -/
def giveVerbose (options : Options) : Except Fault Options :=
  if options.verbose then .error (.repeated Switch.verbose.name)
  else .ok { options with verbose := true }

end Options

end FlameFold.CommandLine
