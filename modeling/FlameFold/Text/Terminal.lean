import FlameFold.Text.Utf8

/-!
# Texts for a terminal

A text for a terminal can hold control sequences, which move or colour and are not shown.
Where there is no terminal they are taken out, and with them every control character that
is no white space.
-/

namespace FlameFold.Text.Terminal

/-- What the characters read so far have begun. -/
inductive Mode where
  /-- Nothing: characters are shown. -/
  | plain
  /-- An escape. -/
  | escape
  /-- An escape with marks before its last character. -/
  | marked
  /-- A control sequence, up to its last character. -/
  | sequence
  /-- A message to a device. -/
  | device
  /-- A message to a device, with arguments. -/
  | deviceArguments
  /-- A message to a device, with marks after its arguments. -/
  | deviceMarks
  /-- The text of a message. -/
  | message
  /-- A command to the system of the terminal. -/
  | command
  deriving DecidableEq, Repr

/-- Whether a number lies between two others. -/
def within (low high n : Nat) : Bool := low ≤ n && n ≤ high

/-- Whether the bytes of a character hold the one that ends a message. -/
def endsMessage (c : Char) : Bool := (String.utf8EncodeChar c).contains 0x9C

/-- The mode after a character. Three characters mean the same in every mode: two break off
what has begun, and one begins an escape. -/
def Mode.next (mode : Mode) (c : Char) : Mode :=
  let n := c.toNat
  if n = 0x18 ∨ n = 0x1A then .plain
  else if n = 0x1B then .escape
  else match mode with
    | .plain => .plain
    | .escape =>
      if c = '[' then .sequence
      else if c = ']' then .command
      else if c = 'P' then .device
      else if c = 'X' ∨ c = '^' ∨ c = '_' then .message
      else if within 0x20 0x2F n then .marked
      else if within 0x30 0x7E n then .plain
      else .escape
    | .marked => if within 0x30 0x7E n then .plain else .marked
    | .sequence => if within 0x40 0x7E n then .plain else .sequence
    | .device =>
      if within 0x40 0x7E n then .message
      else if within 0x30 0x3F n then .deviceArguments
      else if within 0x20 0x2F n then .deviceMarks
      else .device
    | .deviceArguments =>
      if within 0x3C 0x7E n then .message
      else if within 0x20 0x2F n then .deviceMarks
      else .deviceArguments
    | .deviceMarks => if within 0x30 0x7E n then .message else .deviceMarks
    | .message => if endsMessage c then .plain else .message
    | .command => if n = 0x07 then .plain else .command

/-- A control character that is shown: white space of one byte. -/
def isGap (c : Char) : Bool := c == '\t' || c == '\n' || c == '\x0c' || c == '\r'

/-- A character that is shown in the plain mode. -/
def isPlain (c : Char) : Bool := isGap c || (0x20 ≤ c.toNat && c.toNat != 0x7F)

/-- Whether a character is shown in a mode. White space of one byte can stand inside an
escape or a control sequence. -/
def Mode.shows (mode : Mode) (c : Char) : Bool :=
  match mode with
  | .plain => isPlain c
  | .escape | .marked | .sequence => isGap c
  | _ => false

/-- The characters that are shown. Once one is, all that follow it are read in the plain mode
up to one that is not shown; that one is read in the mode in which the first one was, unless
a character of several bytes stands between the two. -/
def shown (open' : Bool) (mode : Mode) : List Char → List Char
  | [] => []
  | c :: rest =>
    if open' && isPlain c then c :: shown true (if c.toNat < 0x80 then mode else .plain) rest
    else
      let after := mode.next c
      if mode.shows c then c :: shown true after rest else shown false after rest

/-- A text without what only a terminal understands. -/
def withoutControls (text : String) : String :=
  String.ofList (shown false .plain text.toList)

/-- A text in bold letters. -/
def bold (text : String) : String := "\x1b[1m" ++ text ++ "\x1b[0m"

/-- A text in a colour. -/
def coloured (colour : Nat) (text : String) : String :=
  "\x1b[" ++ Nat.repr colour ++ "m" ++ text ++ "\x1b[0m"

end FlameFold.Text.Terminal
