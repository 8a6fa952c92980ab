import FlameFold.CommandLine.Options
import FlameFold.Text.Blank

/-!
# Requests

The words of a command line are read one after another. A command is known only before the
first option. A value that stands as a word of its own is read when the next option comes or
the line ends, so a word without meaning is complained about before a value that cannot be
read.
-/

namespace FlameFold.CommandLine

/-- What a word looks like. -/
inductive Shape where
  /-- Two dashes. -/
  | dashes
  /-- Two dashes and a name, with a value after an equals sign if there is one. -/
  | long (name : String) (value : Option String)
  /-- One dash and letters. -/
  | letters (cs : List Char)
  /-- Any other word. -/
  | plain
  deriving DecidableEq, Repr

/-- The shape of a word. -/
def Shape.ofWord (word : String) : Shape :=
  match word.toList with
  | ['-', '-'] => .dashes
  | '-' :: '-' :: cs =>
    match cs.span (· != '=') with
    | (name, []) => .long (String.ofList name) none
    | (name, _ :: value) => .long (String.ofList name) (some (String.ofList value))
  | '-' :: c :: cs => .letters (c :: cs)
  | _ => .plain

/-- What ends the reading of a command line before anything runs. -/
inductive Stop where
  /-- Something is wrong with it. -/
  | fault (fault : Fault)
  /-- It asks how a level is called. -/
  | help (level : Level)
  /-- It asks for the version. -/
  | version
  deriving DecidableEq, Repr

/-- A value that has not been read yet. -/
inductive Pending where
  /-- There is none. -/
  | nothing
  /-- A key waits for its value. -/
  | awaited (key : Key)
  /-- The value of a key stands as a word of its own. -/
  | held (key : Key) (word : String)
  deriving DecidableEq, Repr

/-- How far the words of a level have been read. -/
structure Reading where
  /-- What the options say so far. -/
  options : Options
  /-- The value that has not been read yet. -/
  pending : Pending
  /-- Whether an option has been read. -/
  begun : Bool
  /-- Whether two dashes have been read. -/
  closed : Bool
  deriving DecidableEq, Repr

namespace Reading

/-- Nothing has been read. -/
def start : Reading := ⟨.empty, .nothing, false, false⟩

/-- Read the value that has not been read yet. -/
def settle (reading : Reading) : Except Stop Reading :=
  match reading.pending with
  | .nothing => .ok reading
  | .awaited key => .error (.fault (.valueMissing key))
  | .held key word =>
    match reading.options.give key word with
    | .ok options => .ok { reading with options := options, pending := .nothing }
    | .error fault => .error (.fault fault)

/-- A key with its value in the same word. -/
def giveAttached (reading : Reading) (key : Key) (word : String) : Except Stop Reading := do
  let reading ← reading.settle
  match reading.options.give key word with
  | .ok options => .ok { reading with options := options, begun := true }
  | .error fault => .error (.fault fault)

/-- A key whose value is to come. -/
def await (reading : Reading) (key : Key) : Except Stop Reading := do
  let reading ← reading.settle
  return { reading with pending := .awaited key, begun := true }

/-- A switch. -/
def turn (level : Level) (reading : Reading) (switch : Switch) : Except Stop Reading := do
  let reading ← reading.settle
  match switch with
  | .help => .error (.help level)
  | .version => .error .version
  | .verbose =>
    match reading.options.giveVerbose with
    | .ok options => .ok { reading with options := options, begun := true }
    | .error fault => .error (.fault fault)

/-- Letters after a dash. What follows the letter of a key is its value, after an equals
sign or without one. -/
def readLetters (level : Level) (word : String) : Reading → List Char → Except Stop Reading
  | reading, [] => .ok reading
  | reading, c :: cs =>
    match level.lettered? c with
    | none => .error (.fault (.unexpected word))
    | some (.switch switch) => do readLetters level word (← reading.turn level switch) cs
    | some (.key key) =>
      match cs with
      | [] => reading.await key
      | '=' :: value => reading.giveAttached key (String.ofList value)
      | value => reading.giveAttached key (String.ofList value)

/-- Read one word of a level. -/
def readWord (level : Level) (reading : Reading) (word : String) : Except Stop Reading :=
  if reading.closed then .error (.fault (.unexpected word))
  else match Shape.ofWord word with
    | .dashes => .ok { reading with closed := true }
    | .long name value =>
      match level.named? name, value with
      | some (.key key), some value => reading.giveAttached key value
      | some (.key key), none => reading.await key
      | some (.switch switch), none => reading.turn level switch
      | _, _ => .error (.fault (.unexpected word))
    | .letters cs => reading.readLetters level word cs
    | .plain =>
      match reading.pending with
      | .awaited key => .ok { reading with pending := .held key word }
      | _ => .error (.fault (.unexpected word))

/-- The command that a word names. Only the program itself has commands, and only before
its options. -/
def command? (level : Level) (reading : Reading) (word : String) : Option Level :=
  if level = .program ∧ ¬ reading.begun ∧ ¬ reading.closed then Level.ofName? word else none

/-- Read the words of a level; the words after a command are its own. -/
def readWords (level : Level) :
    Reading → List String → Except Stop (Reading × Option (Level × List String))
  | reading, [] => .ok (reading, none)
  | reading, word :: rest =>
    match reading.command? level word with
    | some command => .ok (reading, some (command, rest))
    | none => do readWords level (← reading.readWord level word) rest

end Reading

/-- The environment: what its variables say. -/
abbrev Environment := List (String × String)

/-- The value that the environment has for a key. -/
def Environment.value? (environment : Environment) (key : Key) : Option String :=
  key.environmentName?.bind fun name => environment.lookup name

namespace Options

/-- Take from the environment what has not been given. -/
def completeFrom (environment : Environment) : List Key → Options → Except Fault Options
  | [], options => .ok options
  | key :: rest, options =>
    match if options.isGiven key then none else environment.value? key with
    | some word => do completeFrom environment rest (← options.assign key word)
    | none => completeFrom environment rest options

/-- The first of some keys that must be given and is not. -/
def missing? (options : Options) (keys : List Key) : Option Key :=
  keys.find? fun key => key.isRequired && !options.isGiven key

/-- The options of a level whose words have all been read. -/
def complete (level : Level) (environment : Environment) (options : Options) :
    Except Fault Options := do
  let options ← options.completeFrom environment level.keys
  match options.missing? level.keys with
  | some key => .error (.keyMissing key)
  | none => return options

end Options

/-- What a command line asks for. -/
structure Request where
  /-- The level that does it. -/
  level : Level
  /-- What the options say. -/
  options : Options
  deriving DecidableEq, Repr

namespace Request

/-- The options of a reading that has come to the end of its words. -/
def finish (level : Level) (environment : Environment) (reading : Reading) :
    Except Stop Options := do
  let reading ← reading.settle
  match reading.options.complete level environment with
  | .ok options => .ok options
  | .error fault => .error (.fault fault)

/-- The level that a line asks help for. -/
def helped : List String → Stop
  | [] => .help .program
  | [word] =>
    match Level.ofName? word with
    | some level => .help level
    | none => .fault (.unexpected word)
  | word :: other :: _ =>
    .fault (.unexpected (if (Level.ofName? word).isSome then other else word))

/-- Read the words of a command. -/
def ofCommand (environment : Environment) (command : Level) (words : List String) :
    Except Stop Request := do
  let (reading, _) ← Reading.start.readWords command words
  return ⟨command, ← finish command environment reading⟩

/-- Read a command line. What the environment gives to the program itself has to be right
even where a command takes no notice of it. -/
def parse (environment : Environment) (words : List String) : Except Stop Request := do
  match ← Reading.start.readWords .program words with
  | (reading, none) => return ⟨.program, ← finish .program environment reading⟩
  | (reading, some (command, rest)) =>
    if command = .help then .error (helped rest)
    else
      let request ← ofCommand environment command rest
      let _ ← finish .program environment reading
      return request

end Request

end FlameFold.CommandLine
