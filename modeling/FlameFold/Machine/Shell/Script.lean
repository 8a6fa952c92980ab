/-!
# Shell scripts

The commands of a shell script. A word of a command is a list of parts, each of which is
expanded when the command runs.
-/

namespace FlameFold.Machine.Shell

/-- What is taken of a variable. -/
inductive Rule where
  /-- Its value. -/
  | value
  /-- The length of its value. -/
  | length
  /-- Its value, or else the operand; `orEmpty` says that an empty value counts as none. -/
  | otherwise (orEmpty : Bool)
  /-- Its value, or else the operand, which it has from then on. -/
  | assigned (orEmpty : Bool)
  /-- The operand if it has a value. -/
  | present (orEmpty : Bool)
  /-- Its value; without one the script ends. -/
  | required (orEmpty : Bool)
  /-- Its value without the shortest or the longest text that the operand matches, at the
  front or at the end. -/
  | without (front longest : Bool)
  /-- Nothing: the rule is not one. -/
  | unknown
  deriving DecidableEq, Repr

mutual

/-- A part of a word. -/
inductive Part where
  /-- Characters as they are; those in quotes match only themselves. -/
  | plain (text : String) (quoted : Bool)
  /-- What is taken of a variable. -/
  | variable (name : String) (rule : Rule) (operand : List Part) (quoted : Bool)
  /-- What commands write. -/
  | output (body : List Command) (quoted : Bool)
  /-- The value of an expression. -/
  | sum (expression : List Part) (quoted : Bool)

/-- A change of where a command reads and writes. -/
inductive Redirection where
  /-- Read the stream `stream` from a file. -/
  | input (stream : Nat) (word : List Part)
  /-- Read a text that stands in the script. -/
  | here (stream : Nat) (text : List Part)
  /-- Write the stream `stream` to a file, which is emptied unless `keep` is set. -/
  | file (stream : Nat) (word : List Part) (keep : Bool)
  /-- Write the stream `stream` to where the stream `target` goes. -/
  | duplicate (stream : Nat) (target : List Part)

/-- A command. -/
inductive Command where
  /-- Set variables and call a program. -/
  | simple (line : Nat) (assignments : List (String × List Part)) (words : List (List Part))
      (redirections : List Redirection)
  /-- Commands in braces, or in parentheses if `apart` is set. -/
  | group (apart : Bool) (body : List Command)
  /-- A command that reads and writes elsewhere. -/
  | redirected (line : Nat) (body : Command) (redirections : List Redirection)
  /-- The first body whose condition holds; the last condition may be empty. -/
  | choice (branches : List (List Command × List Command))
  /-- The body as long as the condition holds, or as long as it does not. -/
  | loop (negated : Bool) (condition body : List Command)
  /-- The body for each word; without words, for each argument of the script. -/
  | forEach (line : Nat) (name : String) (words : Option (List (List Part)))
      (body : List Command)
  /-- The first body with a pattern that the word matches. -/
  | select (line : Nat) (word : List Part) (cases : List (List (List Part) × List Command))
  /-- Name a command. -/
  | define (name : String) (body : Command)
  /-- Each command reads what the one before it writes. -/
  | pipeline (negated : Bool) (commands : List Command)
  /-- The second command if the first one ends well, or if it does not. -/
  | next (onFailure : Bool) (first second : Command)
  /-- A command that runs beside those that come after it. -/
  | beside (body : Command)

end

/-- A word: its parts in order. -/
abbrev Word := List Part

/-- Why a script cannot be read. -/
inductive ScriptFault where
  /-- A quote is not closed. -/
  | openQuote
  /-- An old-style script in a word is not closed. -/
  | openGrave
  /-- The braces around a variable are not closed. -/
  | openBrace
  /-- An expression is not closed. -/
  | openSum
  /-- What a loop runs over is not the name of a variable. -/
  | loopName
  /-- What is to be named cannot be. -/
  | commandName
  /-- A token stands where it has no meaning, and perhaps in the place of another. -/
  | unexpected (found : String) (expected : Option String)
  deriving DecidableEq, Repr

/-- The wording of the fault. -/
def ScriptFault.message (fault : ScriptFault) : String :=
  "Syntax error: " ++ match fault with
    | .openQuote => "Unterminated quoted string"
    | .openGrave => "EOF in backquote substitution"
    | .openBrace => "Missing '\x7d'"
    | .openSum => "Missing '))'"
    | .loopName => "Bad for loop variable"
    | .commandName => "Bad function name"
    | .unexpected found none => found ++ " unexpected"
    | .unexpected found (some expected) => found ++ " unexpected (expecting " ++ expected ++ ")"

/-- Whether a text can be the name of a variable. -/
def isName (name : String) : Bool :=
  match name.toList with
  | [] => false
  | c :: cs => (c.isAlpha || c == '_') && cs.all fun c => c.isAlphanum || c == '_'

/-- The commands whose meaning no script can change. -/
def fixedNames : List String :=
  [".", ":", "break", "continue", "eval", "exec", "exit", "export", "readonly", "return", "set",
    "shift", "times", "trap", "unset"]

end FlameFold.Machine.Shell
