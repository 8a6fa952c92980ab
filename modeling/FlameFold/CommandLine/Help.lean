import FlameFold.CommandLine.Request
import FlameFold.Text.Lines

/-!
# Help

The text that says how a level is called: what it does, the form of its words, and tables of
its commands and options. The second columns of a table begin in one place. The text is for
a terminal, with the words that are to be typed in bold letters.
-/

namespace FlameFold.CommandLine

namespace Help

/-- What stands before the name of a row. -/
inductive Lead where
  /-- Nothing. -/
  | nothing
  /-- Room for the letter of an option. -/
  | room
  /-- The letter of an option. -/
  | letter (c : Char)
  deriving DecidableEq, Repr

/-- How many columns a lead takes. -/
def Lead.size : Lead → Nat
  | .nothing => 0
  | _ => 4

/-- The text of a lead. -/
def Lead.text : Lead → String
  | .nothing => ""
  | .room => "    "
  | .letter c => Text.Terminal.bold (String.ofList ['-', c]) ++ ", "

/-- A row of a table: a name and what it is for. -/
structure Row where
  /-- What stands before the name. -/
  lead : Lead
  /-- What is to be typed. -/
  name : String
  /-- What stands for a value. -/
  value : String
  /-- What it is for. -/
  summary : String
  deriving DecidableEq, Repr

/-- The width of a row's first column. -/
def Row.size (row : Row) : Nat := row.lead.size + row.name.length + row.value.length

/-- The width of the first column. -/
def width (rows : List Row) : Nat := (rows.map Row.size).foldl max 0

/-- Some spaces. -/
def spaces (n : Nat) : String := String.ofList (List.replicate n ' ')

/-- A text in the second column: the marks of a line break are line breaks, and each line
begins where the first one does. -/
def inColumn (margin : Nat) (text : String) : String :=
  let broken := (text.splitOn "\x7bn\x7d").flatMap Text.pieces
  ("\n" ++ spaces margin).intercalate broken

/-- A row in a first column of the given width. -/
def Row.line (width : Nat) (row : Row) : String :=
  "  " ++ row.lead.text ++ Text.Terminal.bold row.name ++ row.value ++
    spaces (width - row.size) ++ "  " ++ inColumn (width + 4) row.summary ++ "\n"

/-- A table under its title. -/
def table (title : String) (rows : List Row) : String :=
  "\n" ++ title ++ ":\n" ++ String.join (rows.map (Row.line (width rows)))

/-- The row of a key. The value from the environment and the standard value are shown. -/
def keyRow (environment : Environment) (key : Key) : Row :=
  let given := match key.environmentName? with
    | some name => " [env: " ++ name ++ "=" ++ (environment.value? key).getD "" ++ "]"
    | none => ""
  let standard := match key.standard? with
    | some value => " [default: " ++ value ++ "]"
    | none => ""
  ⟨(key.letter?.map Lead.letter).getD .room, "--" ++ key.name, " <" ++ key.valueName ++ ">",
    key.summary ++ given ++ standard⟩

/-- The row of a switch. -/
def switchRow (switch : Switch) : Row :=
  ⟨.letter switch.letter, "--" ++ switch.name, "", switch.summary⟩

/-- The form of the words of a level. -/
def usage (level : Level) : String :=
  let required := (level.keys.filter Key.isRequired).map fun key => " " ++ key.display
  match level with
  | .program =>
    "Usage: " ++ programName ++ " [OPTIONS]\n       " ++ programName ++ " <COMMAND>\n"
  | .help => "Usage: " ++ programName ++ " help [COMMAND]...\n"
  | _ =>
    "Usage: " ++ programName ++ " " ++ level.name ++ " [OPTIONS]" ++ String.join required ++ "\n"

/-- The tables of a level. -/
def tables (environment : Environment) (level : Level) : String :=
  let options :=
    table "Options" (level.keys.map (keyRow environment) ++ level.switches.map switchRow)
  match level with
  | .program =>
    table "Commands" (Level.commands.map fun command =>
      ⟨.nothing, command.name, "", command.summary⟩) ++ options
  | .help => table "Arguments" [⟨.nothing, "[COMMAND]...", "", "Print help for the subcommand(s)"⟩]
  | _ => options

/-- How a level is called. -/
def text (environment : Environment) (level : Level) : String :=
  level.summary ++ "\n\n" ++ usage level ++ tables environment level

end Help

end FlameFold.CommandLine
