import FlameFold.Json.Value

/-!
# Reading a JSON text

Every reading function takes the characters that are left and gives what it has read;
the characters after it are given only if all of it was well formed.
-/

namespace FlameFold.Json

/-- White space between values. -/
def isSpace (c : Char) : Bool := c == ' ' || c == '\n' || c == '\t' || c == '\r'

/-- Drop white space. -/
def skipSpaces (cs : List Char) : List Char := cs.dropWhile isSpace

/-- The value of a digit in base sixteen. -/
def hexValue? (c : Char) : Option Nat :=
  if '0' ≤ c ∧ c ≤ '9' then some (c.toNat - 48)
  else if 'a' ≤ c ∧ c ≤ 'f' then some (c.toNat - 87)
  else if 'A' ≤ c ∧ c ≤ 'F' then some (c.toNat - 55)
  else none

/-- A part of a written text. -/
inductive Piece where
  /-- A character, written as itself or by a letter. -/
  | char (c : Char)
  /-- A unit of sixteen bits, written by its number. -/
  | unit (n : Nat)
  deriving DecidableEq, Repr

/-- The character that a letter after a backslash stands for. -/
def lettered? (c : Char) : Option Char :=
  match c with
  | '"' => some '"'
  | '\\' => some '\\'
  | '/' => some '/'
  | 'b' => some '\x08'
  | 'f' => some '\x0c'
  | 'n' => some '\n'
  | 'r' => some '\r'
  | 't' => some '\t'
  | _ => none

/-- Put a piece in front of those that are read. -/
def push (piece : Piece) (read : Option (List Piece × List Char)) :
    Option (List Piece × List Char) :=
  read.map fun (pieces, rest) => (piece :: pieces, rest)

/-- Read the pieces of a text up to its closing quote. -/
def readPieces : List Char → Option (List Piece × List Char)
  | [] => none
  | '"' :: rest => some ([], rest)
  | '\\' :: 'u' :: a :: b :: c :: d :: rest =>
    match hexValue? a, hexValue? b, hexValue? c, hexValue? d with
    | some a, some b, some c, some d =>
      push (.unit (((a * 16 + b) * 16 + c) * 16 + d)) (readPieces rest)
    | _, _, _, _ => none
  | '\\' :: letter :: rest =>
    (lettered? letter).bind fun c => push (.char c) (readPieces rest)
  | c :: rest => if c.toNat < 0x20 then none else push (.char c) (readPieces rest)

/-- A unit that begins a pair. -/
def isLeading (n : Nat) : Bool := 0xD800 ≤ n && n ≤ 0xDBFF

/-- A unit that ends a pair. -/
def isTrailing (n : Nat) : Bool := 0xDC00 ≤ n && n ≤ 0xDFFF

/-- The characters that pieces stand for; nothing if half of a pair is missing. -/
def assemble : List Piece → Option (List Char)
  | [] => some []
  | .char c :: rest => (assemble rest).map (c :: ·)
  | .unit n :: .unit m :: rest =>
    if isLeading n then
      if isTrailing m then
        (assemble rest).map (Char.ofNat (0x10000 + (n - 0xD800) * 0x400 + (m - 0xDC00)) :: ·)
      else none
    else if isTrailing n then none
    else (assemble (.unit m :: rest)).map (Char.ofNat n :: ·)
  | .unit n :: rest =>
    if isLeading n || isTrailing n then none else (assemble rest).map (Char.ofNat n :: ·)

/-- Read a text after its opening quote; it has no content if it stands for no text. -/
def readText (cs : List Char) : Option (Option String × List Char) :=
  (readPieces cs).map fun (pieces, rest) => ((assemble pieces).map String.ofList, rest)

namespace Number

/-- A decimal digit. -/
def isDigit (c : Char) : Bool := '0' ≤ c && c ≤ '9'

/-- Add digits to a significand as long as it stays below `2 ^ 64`; gives the significand
and the digits that did not fit. -/
def gather (significand : Nat) : List Char → Nat × List Char
  | [] => (significand, [])
  | c :: rest =>
    let next := significand * 10 + (c.toNat - 48)
    if next < Nat.pow 2 64 then gather next rest else (significand, c :: rest)

/-- The greatest power of ten that is a number of 64 bits. -/
def greatestPower : Nat := 308

/-- A significand times a power of ten. The product is formed in numbers of 64 bits with
a binary point, step by step for small powers; nothing if it is too large. -/
def scale : Nat → Decimal.Magnitude → Int → Option Decimal.Magnitude
  | 0, size, _ => some size
  | steps + 1, size, exponent =>
    if exponent.natAbs ≤ greatestPower then
      let power := Decimal.Magnitude.ofDecimal 1 exponent.natAbs
      if 0 ≤ exponent then
        match size.mul power with
        | .infinite => none
        | product => some product
      else some (size.div power)
    else match size with
      | .finite 0 _ => some size
      | _ =>
        if 0 ≤ exponent then none
        else scale steps (size.div (.ofDecimal 1 greatestPower)) (exponent + greatestPower)

/-- A number with a fraction or a power of ten, or one that is too long. -/
def floatingValue (minus : Bool) (significand : Nat) (exponent : Int) : Value :=
  match scale 8 (.ofNat significand) exponent with
  | some size => .number (.floating (.signed minus size))
  | none => .unsound

/-- A whole number that is short enough. -/
def wholeValue (minus : Bool) (size : Nat) : Value :=
  if minus then
    if 0 < size ∧ size ≤ Nat.pow 2 63 then .number (.negative size)
    else .number (.floating (.signed true (.ofNat size)))
  else .number (.natural size)

/-- Read the digits of a power of ten, after its mark. -/
def readPower (cs : List Char) : Option (Int × List Char) :=
  let (minus, cs) := match cs with
    | '-' :: rest => (true, rest)
    | '+' :: rest => (false, rest)
    | _ => (false, cs)
  let digits := cs.takeWhile isDigit
  if digits.isEmpty then none
  else
    let size : Nat := digits.foldl (fun n c => n * 10 + (c.toNat - 48)) 0
    some (if minus then -(size : Int) else size, cs.dropWhile isDigit)

/-- Read a power of ten with its mark, if there is one. -/
def readExponent : List Char → Option (Option Int × List Char)
  | 'e' :: rest => (readPower rest).map fun (power, rest) => (some power, rest)
  | 'E' :: rest => (readPower rest).map fun (power, rest) => (some power, rest)
  | cs => some (none, cs)

/-- Read a point and digits, if there is one. -/
def readFraction : List Char → Option (Option (List Char) × List Char)
  | '.' :: rest =>
    let digits := rest.takeWhile isDigit
    if digits.isEmpty then none else some (some digits, rest.dropWhile isDigit)
  | cs => some (none, cs)

/-- The digits before the point: a lone zero, or digits that start with another one. -/
def readWhole : List Char → Option (List Char × List Char)
  | '0' :: c :: rest => if isDigit c then none else some (['0'], c :: rest)
  | ['0'] => some (['0'], [])
  | cs =>
    let digits := cs.takeWhile isDigit
    if digits.isEmpty then none else some (digits, cs.dropWhile isDigit)

/-- The value of a number from its parts. -/
def assemble (minus : Bool) (whole : List Char) (fraction : Option (List Char))
    (exponent : Option Int) : Value :=
  let (significand, dropped) := gather 0 whole
  match fraction, exponent with
  | none, none =>
    if dropped.isEmpty then wholeValue minus significand
    else floatingValue minus significand dropped.length
  | _, _ =>
    let places := fraction.getD []
    let (significand, ignored) := gather significand places
    floatingValue minus significand
      (dropped.length - (places.length - ignored.length : Nat) + exponent.getD 0)

/-- Read a number. -/
def read (cs : List Char) : Option (Value × List Char) := do
  let (minus, cs) := match cs with
    | '-' :: rest => (true, rest)
    | _ => (false, cs)
  let (whole, cs) ← readWhole cs
  let (fraction, cs) ← readFraction cs
  let (exponent, cs) ← readExponent cs
  return (assemble minus whole fraction exponent, cs)

end Number

/-- A value together with the characters after it, if all of it was well formed. -/
abbrev Reading := Value × Option (List Char)

/-- The reading of something that is no value. -/
def noValue : Reading := (.malformed, none)

/-- Read a value that has no others in it. -/
def readScalar : List Char → Reading
  | 'n' :: 'u' :: 'l' :: 'l' :: rest => (.null, some rest)
  | 't' :: 'r' :: 'u' :: 'e' :: rest => (.boolean true, some rest)
  | 'f' :: 'a' :: 'l' :: 's' :: 'e' :: rest => (.boolean false, some rest)
  | '"' :: rest =>
    match readText rest with
    | some (some content, rest) => (.text content, some rest)
    | some (none, rest) => (.unsound, some rest)
    | none => noValue
  | cs =>
    match Number.read cs with
    | some (value, rest) => (value, some rest)
    | none => noValue

mutual

/-- Read a value; every step uses one unit of `fuel`. -/
def readValue : Nat → List Char → Reading
  | 0, _ => noValue
  | fuel + 1, cs =>
    match skipSpaces cs with
    | '[' :: rest =>
      match skipSpaces rest with
      | ']' :: rest => (.array [] true, some rest)
      | start =>
        let (elements, after) := readElements fuel start
        (.array elements after.isSome, after)
    | '{' :: rest =>
      match skipSpaces rest with
      | '}' :: rest => (.object [] true, some rest)
      | start =>
        let (members, after) := readMembers fuel start
        (.object members after.isSome, after)
    | start => readScalar start

/-- Read the values of an array, from the first one up to the closing bracket. -/
def readElements : Nat → List Char → List Value × Option (List Char)
  | 0, _ => ([.malformed], none)
  | fuel + 1, cs =>
    match readValue fuel cs with
    | (value, none) => ([value], none)
    | (value, some rest) =>
      match skipSpaces rest with
      | ',' :: rest =>
        let (values, after) := readElements fuel rest
        (value :: values, after)
      | ']' :: rest => ([value], some rest)
      | _ => ([value], none)

/-- Read the keys and values of an object, from the first key up to the closing brace. -/
def readMembers : Nat → List Char → List (Option String × Value) × Option (List Char)
  | 0, _ => ([], none)
  | fuel + 1, cs =>
    match skipSpaces cs with
    | '"' :: rest =>
      match readText rest with
      | none => ([], none)
      | some (key, rest) =>
        match skipSpaces rest with
        | ':' :: rest =>
          match readValue fuel rest with
          | (value, none) => ([(key, value)], none)
          | (value, some rest) =>
            match skipSpaces rest with
            | ',' :: rest =>
              let (members, after) := readMembers fuel rest
              ((key, value) :: members, after)
            | '}' :: rest => ([(key, value)], some rest)
            | _ => ([(key, value)], none)
        | _ => ([(key, .malformed)], none)
    | _ => ([], none)

end

/-- Read a whole text: its value, and whether only white space follows it. -/
def parse (text : String) : Value × Bool :=
  let cs := text.toList
  match readValue (2 * cs.length + 2) cs with
  | (value, some rest) => (value, (skipSpaces rest).isEmpty)
  | (value, none) => (value, false)

end FlameFold.Json
