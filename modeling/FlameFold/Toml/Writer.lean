/-!
# Writing a settings document

A text is written in the first form that can hold it: between quotes or apostrophes
as it is, over several lines if it has a newline, and else with escapes.
-/

namespace FlameFold.Toml

/-- The forms in which a text can be written. -/
inductive Form where
  /-- Between quotes, with escapes. -/
  | basic
  /-- Between apostrophes, as it is. -/
  | literal
  /-- Between three quotes, with escapes. -/
  | multiBasic
  /-- Between three apostrophes, as it is. -/
  | multiLiteral
  deriving DecidableEq, Repr

namespace Form

/-- A character that only an escape can write; a tab and a newline are none. -/
def isControl (c : Char) : Bool :=
  (c.toNat < 0x20 && c != '\t' && c != '\n') || c.toNat == 0x7F

/-- The length of the longest run of a character. -/
def longestRun (c : Char) (cs : List Char) : Nat :=
  (cs.foldl (fun (longest, run) x =>
    let run := if x = c then run + 1 else 0
    (max longest run, run)) (0, 0)).1

/-- The form for a text. -/
def choose (cs : List Char) : Form :=
  let controls := cs.any isControl
  let newline := cs.contains '\n'
  if !controls && !newline && !cs.contains '\\' && !cs.contains '"' then basic
  else if !controls && !newline && !cs.contains '\'' then literal
  else if !controls && !cs.contains '\\' && longestRun '"' cs < 3 then multiBasic
  else if !controls && longestRun '\'' cs < 3 then multiLiteral
  else if newline then multiBasic
  else basic

/-- A control character by its number. -/
def numbered (c : Char) : List Char :=
  let n := c.toNat
  '\\' :: 'u' :: [n / 4096 % 16, n / 256 % 16, n / 16 % 16, n % 16].map fun d =>
    if d < 10 then Char.ofNat (48 + d) else Char.ofNat (55 + d)

/-- A character other than a quote and a newline, with a backslash in front where it
needs one. -/
def escape (c : Char) : List Char :=
  if c = '\x08' then ['\\', 'b']
  else if c = '\t' then ['\\', 't']
  else if c = '\x0c' then ['\\', 'f']
  else if c = '\r' then ['\\', 'r']
  else if c = '\\' then ['\\', '\\']
  else if isControl c then numbered c
  else [c]

/-- A text on one line with escapes. -/
def basicChars (cs : List Char) : List Char :=
  cs.flatMap fun c =>
    if c = '\n' then ['\\', 'n'] else if c = '"' then ['\\', '"'] else escape c

/-- A text over several lines with escapes. After two quotes in a row, the next one
gets a backslash; `run` counts the quotes just written without one. -/
def multiBasicChars : Nat → List Char → List Char
  | _, [] => []
  | run, c :: cs =>
    if c = '"' then
      if run = 2 then '\\' :: '"' :: multiBasicChars 0 cs else '"' :: multiBasicChars (run + 1) cs
    else if c = '\n' then '\n' :: multiBasicChars 0 cs
    else escape c ++ multiBasicChars 0 cs

/-- A line end after the opening delimiter, if the text has one itself. -/
def opening (cs : List Char) : List Char := if cs.contains '\n' then ['\n'] else []

/-- A text in a given form. -/
def write (form : Form) (cs : List Char) : List Char :=
  match form with
  | basic => '"' :: basicChars cs ++ ['"']
  | literal => '\'' :: cs ++ ['\'']
  | multiBasic =>
    ['"', '"', '"'] ++ opening cs ++ multiBasicChars 0 cs ++ ['"', '"', '"']
  | multiLiteral => ['\'', '\'', '\''] ++ opening cs ++ cs ++ ['\'', '\'', '\'']

end Form

/-- A text as it is written in a document. -/
def writeText (text : String) : String :=
  let cs := text.toList
  String.ofList ((Form.choose cs).write cs)

end FlameFold.Toml
