import FlameFold.Settings.Basic

/-!
# Commands and options

The commands of the program, and the options of each of them. An option is written with
two dashes and its name, or with one dash and its letter; a key takes a value, a switch does
not.
-/

namespace FlameFold.CommandLine

/-- A level of the command line: the program itself or one of its commands. -/
inductive Level where
  /-- The program itself, which converts recordings. -/
  | program
  /-- Convert recordings. -/
  | convert
  /-- Fold the text of a dump. -/
  | fold
  /-- Show the settings. -/
  | config
  /-- Show how the program is called. -/
  | help
  deriving DecidableEq, Repr

/-- An option with a value. -/
inductive Key where
  | settingsFile
  | root
  | outputDirectory
  | renderer
  | dumpTool
  | event
  | stackDepth
  | title
  | timeout
  | recording
  | report
  | dumpInput
  | foldedOutput
  | sampleEvent
  deriving DecidableEq, Repr

/-- An option without a value. -/
inductive Switch where
  /-- Show more of the log. -/
  | verbose
  /-- Show how the level is called. -/
  | help
  /-- Show the version. -/
  | version
  deriving DecidableEq, Repr

/-- An option. -/
inductive Mark where
  | key (key : Key)
  | switch (switch : Switch)
  deriving DecidableEq, Repr

/-- The name of the program. -/
def programName : String := "jfr-flamegraph"

/-- The version of the program. -/
def programVersion : String := "0.1.0"

namespace Level

/-- The commands in the order in which they are shown. -/
def commands : List Level := [.convert, .fold, .config, .help]

/-- The word for a command. -/
def name : Level → String
  | .program => programName
  | .convert => "convert"
  | .fold => "fold"
  | .config => "config"
  | .help => "help"

/-- The command for a word. -/
def ofName? (word : String) : Option Level := commands.find? (·.name == word)

/-- What a level does. -/
def summary : Level → String
  | .program => "Convert Java Flight Recorder recordings into Flame Graph SVGs"
  | .convert => "Convert the configured recordings into flame graphs"
  | .fold => "Fold a saved `jfr print` dump into collapsed stacks"
  | .config => "Print the effective configuration as TOML"
  | .help => "Print this message or the help of the given subcommand(s)"

/-- The keys that set something in the settings. -/
def settingKeys : List Key :=
  [.settingsFile, .root, .outputDirectory, .renderer, .dumpTool, .event, .stackDepth, .title,
    .timeout, .recording]

/-- The keys of a level in the order in which they are shown. -/
def keys : Level → List Key
  | .program => settingKeys ++ [.report]
  | .convert => settingKeys ++ [.report]
  | .config => settingKeys
  | .fold => [.dumpInput, .foldedOutput, .sampleEvent]
  | .help => []

/-- The switches of a level in the order in which they are shown. -/
def switches : Level → List Switch
  | .program => [.verbose, .help, .version]
  | .help => []
  | _ => [.verbose, .help]

end Level

namespace Key

/-- The name of a key. -/
def name : Key → String
  | .settingsFile => "config"
  | .root => "root"
  | .outputDirectory => "output-dir"
  | .renderer => "renderer"
  | .dumpTool => "dump-tool"
  | .event => "event"
  | .stackDepth => "stack-depth"
  | .title => "title"
  | .timeout => "timeout"
  | .recording => "recording"
  | .report => "report"
  | .dumpInput => "input"
  | .foldedOutput => "output"
  | .sampleEvent => "event"

/-- The letter of a key, if it has one. -/
def letter? : Key → Option Char
  | .settingsFile => some 'c'
  | .root => some 'r'
  | .outputDirectory => some 'o'
  | .dumpInput => some 'i'
  | .foldedOutput => some 'o'
  | _ => none

/-- The word that stands for the value of a key. -/
def valueName : Key → String
  | .settingsFile => "CONFIG"
  | .root => "ROOT"
  | .outputDirectory => "OUTPUT_DIR"
  | .renderer => "RENDERER"
  | .dumpTool => "DUMP_TOOL"
  | .event => "EVENT"
  | .stackDepth => "STACK_DEPTH"
  | .title => "TITLE"
  | .timeout => "TIMEOUT"
  | .recording => "RECORDINGS"
  | .report => "REPORT"
  | .dumpInput => "INPUT"
  | .foldedOutput => "OUTPUT"
  | .sampleEvent => "EVENT"

/-- What a key is for. -/
def summary : Key → String
  | .settingsFile => "TOML config file"
  | .root => "Directory holding recordings and the FlameGraph checkout"
  | .outputDirectory => "Artifact directory (defaults to the root directory)"
  | .renderer => "FlameGraph script, relative to the root directory"
  | .dumpTool => "JFR dump tool"
  | .event => "Event type to extract"
  | .stackDepth => "Maximum stack depth to dump"
  | .title => "Flame graph title"
  | .timeout => "Per-subprocess timeout in seconds"
  | .recording =>
    "Recording as `file` or `file=label` (repeatable, replaces the configured list)"
  | .report => "Write a JSON run report to this path"
  | .dumpInput => "Dump text file (`-` for stdin)"
  | .foldedOutput => "Collapsed output file (stdout if omitted)"
  | .sampleEvent => "Event header that separates samples"

/-- The environment variable that gives the value where the command line does not. -/
def environmentName? : Key → Option String
  | .settingsFile => some "JFR_FLAMEGRAPH_CONFIG"
  | .root => some "JFR_FLAMEGRAPH_ROOT"
  | .dumpTool => some "JFR_TOOL"
  | _ => none

/-- The value where nothing gives one. -/
def standard? : Key → Option String
  | .sampleEvent => some Settings.standard.event
  | _ => none

/-- Whether a key must be given. -/
def isRequired : Key → Bool
  | .dumpInput => true
  | _ => false

/-- A key with its value, as it is written with two dashes. -/
def display (key : Key) : String := "--" ++ key.name ++ " <" ++ key.valueName ++ ">"

end Key

namespace Switch

/-- The name of a switch. -/
def name : Switch → String
  | .verbose => "verbose"
  | .help => "help"
  | .version => "version"

/-- The letter of a switch. -/
def letter : Switch → Char
  | .verbose => 'v'
  | .help => 'h'
  | .version => 'V'

/-- What a switch is for. -/
def summary : Switch → String
  | .verbose => "Enable verbose logging"
  | .help => "Print help"
  | .version => "Print version"

end Switch

namespace Level

/-- The option of a level with a name. -/
def named? (level : Level) (name : String) : Option Mark :=
  ((level.keys.find? (·.name == name)).map Mark.key).or
    ((level.switches.find? (·.name == name)).map Mark.switch)

/-- The option of a level with a letter. -/
def lettered? (level : Level) (letter : Char) : Option Mark :=
  ((level.keys.find? (·.letter? == some letter)).map Mark.key).or
    ((level.switches.find? (·.letter == letter)).map Mark.switch)

end Level

end FlameFold.CommandLine
