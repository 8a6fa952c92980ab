import FlameFold.Text.Quoted

/-!
# Printing a JSON text

Values are printed over several lines, two spaces further in for each bracket or brace
around them. An empty array takes no line of its own. Printing stops at what cannot be printed;
a character that no printed text has marks the place.
-/

namespace FlameFold.Json

/-- A value to print. -/
inductive Tree where
  /-- A text. -/
  | text (content : String)
  /-- A whole number. -/
  | number (size : Nat)
  /-- Values in order. -/
  | array (elements : List Tree)
  /-- Values under keys. -/
  | object (members : List (String × Tree))
  /-- Something that cannot be printed. -/
  | unprintable

/-- A character between quotes. -/
def escape (c : Char) : List Char :=
  if c = '"' then ['\\', '"']
  else if c = '\\' then ['\\', '\\']
  else if c = '\x08' then ['\\', 'b']
  else if c = '\x0c' then ['\\', 'f']
  else if c = '\n' then ['\\', 'n']
  else if c = '\r' then ['\\', 'r']
  else if c = '\t' then ['\\', 't']
  else if c.toNat < 0x20 then
    ['\\', 'u', '0', '0', Text.hexDigit (c.toNat / 16), Text.hexDigit (c.toNat % 16)]
  else [c]

/-- A text between quotes. -/
def quote (content : String) : List Char :=
  '"' :: content.toList.flatMap escape ++ ['"']

/-- A new line at a depth. -/
def newLine (depth : Nat) : List Char := '\n' :: List.replicate (2 * depth) ' '

namespace Tree

/-- The mark for what cannot be printed. -/
def mark : Char := '\x00'

mutual

/-- Print a value at a depth. -/
def print (depth : Nat) : Tree → List Char
  | .text content => quote content
  | .number size => (Nat.repr size).toList
  | .array [] => ['[', ']']
  | .array (first :: rest) =>
    '[' :: newLine (depth + 1) ++ print (depth + 1) first ++ printRest (depth + 1) rest ++
      newLine depth ++ [']']
  | .object [] => ['{', '}']
  | .object ((key, value) :: rest) =>
    '{' :: newLine (depth + 1) ++ quote key ++ ':' :: ' ' :: print (depth + 1) value ++
      printMembers (depth + 1) rest ++ newLine depth ++ ['}']
  | .unprintable => [mark]

/-- Print the values after the first one of an array. -/
def printRest (depth : Nat) : List Tree → List Char
  | [] => []
  | value :: rest => ',' :: newLine depth ++ print depth value ++ printRest depth rest

/-- Print the keys and values after the first ones of an object. -/
def printMembers (depth : Nat) : List (String × Tree) → List Char
  | [] => []
  | (key, value) :: rest =>
    ',' :: newLine depth ++ quote key ++ ':' :: ' ' :: print depth value ++
      printMembers depth rest

end

/-- The text of a value. -/
def render (tree : Tree) : String := String.ofList (tree.print 0)

/-- The text of a value up to the first thing in it that cannot be printed. -/
def begun (tree : Tree) : String := String.ofList ((tree.print 0).takeWhile (· != mark))

end Tree

end FlameFold.Json
