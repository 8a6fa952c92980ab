import FlameFold.Toml.Number
import FlameFold.Toml.Table

/-!
# Reading keys and values

A key has parts with dots between them. A value is a text, a number, a truth value or
a moment, or holds other values between brackets or braces.
-/

namespace FlameFold.Toml

/-- Drop spaces and tabs. -/
def skipSpaces (cs : List Char) : List Char := cs.dropWhile Text.isSpace

/-- Drop a line end. -/
def lineEnd? : List Char → Option (List Char)
  | '\n' :: rest => some rest
  | '\r' :: '\n' :: rest => some rest
  | _ => none

/-- Drop a comment, up to the end of its line. -/
def skipComment : List Char → List Char
  | '#' :: rest => rest.dropWhile Text.isPlain
  | cs => cs

/-- Drop spaces, line ends and comments, at most `fuel` of them in turn. -/
def skipBlank : Nat → List Char → List Char
  | 0, cs => cs
  | fuel + 1, cs =>
    match skipSpaces cs with
    | '#' :: rest => skipBlank fuel (rest.dropWhile Text.isPlain)
    | rest => match lineEnd? rest with
      | some after => skipBlank fuel after
      | none => rest

namespace Key

/-- A character of a key without quotes. -/
def isBare (c : Char) : Bool := c.isAlphanum || c == '_' || c == '-'

/-- Read one part of a key. -/
def part (cs : List Char) : Option (String × List Char) :=
  match cs with
  | '"' :: _ | '\'' :: _ =>
    (Text.readLine cs).map fun (text, rest) => (String.ofList text, rest)
  | _ =>
    let bare := cs.takeWhile isBare
    if bare.isEmpty then none else some (String.ofList bare, cs.dropWhile isBare)

/-- The most parts a key may have. -/
def limit : Nat := 79

/-- Read a key of at most `fuel` parts. -/
def parts : Nat → List Char → Option (List String × List Char)
  | 0, _ => none
  | fuel + 1, cs => do
    let (first, rest) ← part (skipSpaces cs)
    match skipSpaces rest with
    | '.' :: more =>
      let (others, after) ← parts fuel more
      return (first :: others, after)
    | after => return ([first], after)

/-- Read a key: the parts on the way, and the last one. -/
def read (cs : List Char) : Option ((List String × String) × List Char) := do
  let (all, rest) ← parts limit cs
  let last ← all.getLast?
  return ((all.dropLast, last), rest)

end Key

namespace Value

/-- The deepest nesting of brackets and braces. -/
def limit : Nat := 79

/-- Read a value without others in it. -/
def readScalar (cs : List Char) : Option (Value × List Char) :=
  match cs with
  | '"' :: _ | '\'' :: _ =>
    (Text.read cs).map fun (content, rest) => (.text (String.ofList content), rest)
  | 't' :: 'r' :: 'u' :: 'e' :: rest => some (.boolean true, rest)
  | 'f' :: 'a' :: 'l' :: 's' :: 'e' :: rest => some (.boolean false, rest)
  | _ =>
    match Moment.read cs with
    | some (written, rest) => some (.moment written, rest)
    | none => match Number.float cs with
      | some (number, rest) => some (.float number, rest)
      | none => (Number.integer cs).map fun (number, rest) => (.integer number, rest)

/-- Read the values of an array up to its closing bracket. Each value is followed by a
comma, which the last one may go without. At most `fuel` steps are taken, each of which
passes a character. -/
def readElements (readOne : List Char → Option (Value × List Char)) :
    Nat → List Char → Option (List Value × List Char)
  | 0, _ => none
  | fuel + 1, cs =>
    match skipBlank fuel cs with
    | ']' :: rest => some ([], rest)
    | start => do
      let (first, rest) ← readOne start
      match skipBlank fuel rest with
      | ',' :: more =>
        let (others, after) ← readElements readOne fuel more
        return (first :: others, after)
      | ']' :: after => return ([first], after)
      | _ => none

/-- Read the keys and values of a table up to its closing brace, with a comma between
every two. -/
def readPairs (readOne : List Char → Option (Value × List Char)) :
    Nat → Entries → List Char → Option (Entries × List Char)
  | 0, _, _ => none
  | fuel + 1, entries, cs => do
    let ((path, key), rest) ← Key.read cs
    match rest with
    | '=' :: rest =>
      let (value, rest) ← readOne (skipSpaces rest)
      let entries ← entries.set path key value
      match skipSpaces rest with
      | ',' :: more => readPairs readOne fuel entries more
      | '}' :: after => return (entries, after)
      | _ => none
    | _ => none

/-- Read a value that nests at most `depth` deep, from a text of at most `size`
characters. -/
def readNested (size : Nat) : Nat → List Char → Option (Value × List Char)
  | 0, cs => readScalar cs
  | depth + 1, cs =>
    match cs with
    | '[' :: rest =>
      (readElements (readNested size depth) size rest).map fun (elements, after) =>
        (.array elements, after)
    | '{' :: rest =>
      match skipSpaces rest with
      | '}' :: after => some (.table .closed [], after)
      | start =>
        (readPairs (readNested size depth) size [] start).map fun (entries, after) =>
          (.table .closed entries, after)
    | _ => readScalar cs

/-- Read a value. -/
def read (cs : List Char) : Option (Value × List Char) :=
  match cs with
  | '[' :: _ | '{' :: _ => readNested cs.length limit cs
  | _ => readScalar cs

end Value

end FlameFold.Toml
