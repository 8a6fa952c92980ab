import FlameFold.Decimal.Binary64

/-!
# Decimals with a given number of places

A rational number written with so many places after the point, with a power of ten, or in
the shorter of the two ways with so many digits. What lies half way goes to the even digit.
-/

namespace FlameFold.Decimal

/-- The number of 64 bits nearest to a rational number; numbers too large for that stay. -/
def nearest (q : Rat) : Rat :=
  match Magnitude.ofRatio q.num.natAbs q.den with
  | .infinite => q
  | .finite m e =>
    let size : Rat := (Magnitude.numerator m e : Rat) / (Magnitude.denominator e : Rat)
    if q < 0 then -size else size

/-- A number of units of the last place, with the point before that many places. -/
def pointed (units places : Nat) : String :=
  let digits := (Nat.repr units).toList
  let padded := List.replicate (places + 1 - digits.length) '0' ++ digits
  let whole := padded.length - places
  String.ofList (padded.take whole ++ (if places = 0 then [] else '.' :: padded.drop whole))

/-- The minus sign of a negative number. -/
def signOf (q : Rat) : String := if q < 0 then "-" else ""

/-- A number with so many places after the point. -/
def fixedText (places : Nat) (q : Rat) : String :=
  signOf q ++ pointed (roundDiv (q.num.natAbs * Nat.pow 10 places) q.den) places

/-- The first digits of a positive quotient and the power of ten of the first one, so that
`places` digits come after it. -/
def leadingDigits (places n d : Nat) : Nat × Int :=
  let scaled (power : Int) : Nat :=
    let shift := (places : Int) - power
    roundDiv (n * Nat.pow 10 shift.toNat) (d * Nat.pow 10 (-shift).toNat)
  let guess : Int := ((Nat.repr n).length : Int) - ((Nat.repr d).length : Int)
  let power :=
    if n * Nat.pow 10 (-guess).toNat < d * Nat.pow 10 guess.toNat then guess - 1 else guess
  let digits := scaled power
  if digits = Nat.pow 10 (places + 1) then (Nat.pow 10 places, power + 1) else (digits, power)

/-- A power of ten with its sign and at least two digits. -/
def powerText (power : Int) : String :=
  let digits := Nat.repr power.natAbs
  "e" ++ (if power < 0 then "-" else "+") ++ (if digits.length < 2 then "0" else "") ++ digits

/-- A number as one digit, so many places and a power of ten. -/
def powerOfTenText (places : Nat) (q : Rat) : String :=
  if q = 0 then pointed 0 places ++ "e+00"
  else
    let (digits, power) := leadingDigits places q.num.natAbs q.den
    signOf q ++ pointed digits places ++ powerText power

/-- A text without the zeros at its end, and without a point that comes last then. -/
def withoutZeros (text : String) : String :=
  if text.toList.contains '.' then
    let cs := text.toList.reverse.dropWhile (· == '0')
    String.ofList (if cs.head? = some '.' then cs.drop 1 else cs).reverse
  else text

/-- A number with so many digits at most, with a power of ten if that is shorter. -/
def generalText (digits : Nat) (q : Rat) : String :=
  let size := max 1 digits
  if q = 0 then "0"
  else
    let (leading, power) := leadingDigits (size - 1) q.num.natAbs q.den
    if power < -4 ∨ (size : Int) ≤ power then
      signOf q ++ withoutZeros (pointed leading (size - 1)) ++ powerText power
    else withoutZeros (fixedText ((size : Int) - 1 - power).toNat q)

/-- The number at the front of some characters, and what is left; nothing where there is no
digit. -/
def atFront? (cs : List Char) : Option (Rat × List Char) :=
  let whole := cs.takeWhile Char.isDigit
  let (places, rest) := match cs.drop whole.length with
    | '.' :: more =>
      let places := more.takeWhile Char.isDigit
      (places, more.drop places.length)
    | rest => ([], rest)
  if whole.isEmpty ∧ places.isEmpty then none
  else
    let value (digits : List Char) : Nat := digits.foldl (fun n c => n * 10 + (c.toNat - 48)) 0
    let mantissa : Rat := (value (whole ++ places) : Rat) / (Nat.pow 10 places.length : Nat)
    let power : Option (Int × List Char) := match rest with
      | e :: more =>
        if e = 'e' ∨ e = 'E' then
          let (negative, digits) := match more with
            | '-' :: digits => (true, digits)
            | '+' :: digits => (false, digits)
            | digits => (false, digits)
          let found := digits.takeWhile Char.isDigit
          if found.isEmpty then none
          else
            let n : Int := ((min 400 (value found) : Nat) : Int)
            some (if negative then -n else n, digits.drop found.length)
        else none
      | [] => none
    match power with
    | none => some (nearest mantissa, rest)
    | some (n, rest) =>
      let scale : Rat := (Nat.pow 10 n.natAbs : Nat)
      some (nearest (if n < 0 then mantissa / scale else mantissa * scale), rest)

end FlameFold.Decimal
