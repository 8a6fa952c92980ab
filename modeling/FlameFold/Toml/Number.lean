import FlameFold.Toml.Text
import FlameFold.Toml.Value

/-!
# Numbers and moments of a settings document

Whole numbers in four bases, numbers with a fraction or a power of ten, and dates and
times. Underlines may stand between two digits.
-/

namespace FlameFold.Toml

namespace Number

/-- A decimal digit. -/
def isDigit (c : Char) : Bool := '0' ≤ c && c ≤ '9'

/-- Read more digits of a number, each of which may follow an underline. -/
def moreDigits (accepts : Char → Bool) : List Char → List Char × List Char
  | '_' :: c :: rest =>
    if accepts c then
      let (digits, after) := moreDigits accepts rest
      (c :: digits, after)
    else ([], '_' :: c :: rest)
  | c :: rest =>
    if accepts c then
      let (digits, after) := moreDigits accepts rest
      (c :: digits, after)
    else ([], c :: rest)
  | [] => ([], [])

/-- Read one digit and more of them. -/
def digits (accepts : Char → Bool) : List Char → Option (List Char × List Char)
  | c :: rest =>
    if accepts c then
      let (more, after) := moreDigits accepts rest
      some (c :: more, after)
    else none
  | [] => none

/-- The value of digits. -/
def value (base : Nat) (digits : List Char) : Nat :=
  digits.foldl (fun n c => n * base + (Text.hexValue? c).getD 0) 0

/-- Read a sign, if there is one; tells whether it is a minus. -/
def sign : List Char → Bool × List Char
  | '-' :: rest => (true, rest)
  | '+' :: rest => (false, rest)
  | cs => (false, cs)

/-- Read the digits of a whole number: a lone zero, or digits that start with
another one. -/
def wholeDigits : List Char → Option (List Char × List Char)
  | '0' :: rest => some (['0'], rest)
  | cs => digits isDigit cs

/-- The number of whole numbers of 64 bits that are not negative. -/
def bound : Nat := Nat.pow 2 63

/-- A whole number of 64 bits with a sign. -/
def inRange (n : Int) : Bool := -(bound : Int) ≤ n && n < (bound : Int)

/-- Keep a whole number that is in range. -/
def ranged (n : Int) (rest : List Char) : Option (Int × List Char) :=
  if inRange n then some (n, rest) else none

/-- Read a whole number. -/
def integer : List Char → Option (Int × List Char)
  | '0' :: 'x' :: rest => do
    let (ds, after) ← digits (fun c => (Text.hexValue? c).isSome) rest
    ranged (value 16 ds) after
  | '0' :: 'o' :: rest => do
    let (ds, after) ← digits (fun c => '0' ≤ c && c ≤ '7') rest
    ranged (value 8 ds) after
  | '0' :: 'b' :: rest => do
    let (ds, after) ← digits (fun c => c == '0' || c == '1') rest
    ranged (value 2 ds) after
  | cs => do
    let (negative, unsigned) := sign cs
    let (ds, after) ← wholeDigits unsigned
    ranged (if negative then -(value 10 ds : Int) else value 10 ds) after

/-- Read a power of ten. -/
def power : List Char → Option (Int × List Char)
  | c :: rest =>
    if c = 'e' ∨ c = 'E' then do
      let (negative, unsigned) := sign rest
      let (ds, after) ← digits isDigit unsigned
      return (if negative then -(value 10 ds : Int) else value 10 ds, after)
    else none
  | [] => none

/-- Read a point and digits. -/
def fraction : List Char → Option (List Char × List Char)
  | '.' :: rest => digits isDigit rest
  | _ => none

/-- What follows the whole part of a number that is not whole: its fraction and its
power of ten. -/
def tail (cs : List Char) : Option ((List Char × Int) × List Char) :=
  match power cs with
  | some (exponent, rest) => some (([], exponent), rest)
  | none => do
    let (places, after) ← fraction cs
    match power after with
    | some (exponent, rest) => return ((places, exponent), rest)
    | none => return ((places, 0), after)

/-- Read a number by its digits. One that is too large is refused, unless it is
negative. -/
def decimal (cs : List Char) : Option (Decimal.Binary64 × List Char) := do
  let (negative, unsigned) := sign cs
  let (whole, afterWhole) ← wholeDigits unsigned
  let ((places, exponent), rest) ← tail afterWhole
  let size := Decimal.Magnitude.ofDecimal (value 10 (whole ++ places))
    (exponent - (places.length : Int))
  if size = .infinite ∧ ¬ negative then none else return (.signed negative size, rest)

/-- Read one of the words for infinite and for no number. -/
def word (cs : List Char) : Option (Decimal.Binary64 × List Char) :=
  match sign cs with
  | (negative, 'i' :: 'n' :: 'f' :: rest) => some (.signed negative .infinite, rest)
  | (_, 'n' :: 'a' :: 'n' :: rest) => some (.nan, rest)
  | _ => none

/-- Read a number that is not written as a whole one. -/
def float (cs : List Char) : Option (Decimal.Binary64 × List Char) := (decimal cs).or (word cs)

end Number

namespace Moment

/-- Read two digits as a number in a range. -/
def two (least most : Nat) : List Char → Option (Nat × List Char)
  | a :: b :: rest =>
    let n := Number.value 10 [a, b]
    if Number.isDigit a && Number.isDigit b && least ≤ n && n ≤ most then some (n, rest)
    else none
  | _ => none

/-- Read one given character. -/
def mark (c : Char) : List Char → Option (Unit × List Char)
  | d :: rest => if d = c then some ((), rest) else none
  | [] => none

/-- The number of days of a month. -/
def daysIn (year month : Nat) : Nat :=
  if month = 2 then
    if year % 4 = 0 ∧ (year % 100 ≠ 0 ∨ year % 400 = 0) then 29 else 28
  else if month = 4 ∨ month = 6 ∨ month = 9 ∨ month = 11 then 30
  else 31

/-- Pass a date. -/
def date : List Char → Option (List Char)
  | a :: b :: c :: d :: rest =>
    if [a, b, c, d].all Number.isDigit then do
      let ((), r) ← mark '-' rest
      let (month, r) ← two 1 12 r
      let ((), r) ← mark '-' r
      let (_, r) ← two 1 (daysIn (Number.value 10 [a, b, c, d]) month) r
      return r
    else none
  | _ => none

/-- Pass a point and at least one digit. -/
def secondFraction : List Char → List Char
  | '.' :: c :: rest =>
    if Number.isDigit c then rest.dropWhile Number.isDigit else '.' :: c :: rest
  | cs => cs

/-- Pass a time of day. -/
def time (cs : List Char) : Option (List Char) := do
  let (_, r) ← two 0 23 cs
  let ((), r) ← mark ':' r
  let (_, r) ← two 0 59 r
  let ((), r) ← mark ':' r
  let (_, r) ← two 0 60 r
  return secondFraction r

/-- Pass a distance from the time of Greenwich. -/
def offset : List Char → Option (List Char)
  | c :: rest =>
    if c = 'Z' ∨ c = 'z' then some rest
    else if c = '+' ∨ c = '-' then do
      let (_, r) ← two 0 23 rest
      let ((), r) ← mark ':' r
      let (_, r) ← two 0 59 r
      return r
    else none
  | [] => none

/-- Pass the time of day that follows a date, if there is one. -/
def timeAfterDate : List Char → List Char
  | c :: rest =>
    if c = 'T' ∨ c = 't' ∨ c = ' ' then
      match time rest with
      | some after => (offset after).getD after
      | none => c :: rest
    else c :: rest
  | [] => []

/-- Pass a date, with a time of day or without, or a time of day. -/
def skip (cs : List Char) : Option (List Char) :=
  match date cs with
  | some rest => some (timeAfterDate rest)
  | none => time cs

/-- Read a date, a time of day, or both. -/
def read (cs : List Char) : Option (String × List Char) :=
  (skip cs).map fun rest => (String.ofList (cs.take (cs.length - rest.length)), rest)

end Moment

end FlameFold.Toml
