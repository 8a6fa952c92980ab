import FlameFold.Decimal.Rounding

/-!
# Numbers of 64 bits with a binary point

Such a number is a significand of at most 53 bits times a power of two, or is
infinite. Every operation is exact on the rational numbers, and its result is then
rounded once to the nearest number, the even one of two.
-/

namespace FlameFold.Decimal

/-- The size of a number, without its sign. -/
inductive Magnitude where
  /-- The number `significand * 2 ^ exponent`. -/
  | finite (significand : Nat) (exponent : Int)
  /-- Larger than every finite number. -/
  | infinite
  deriving DecidableEq, Repr

namespace Magnitude

/-- The least exponent of a finite number. -/
def leastExponent : Int := -1074

/-- The greatest exponent of a finite number. -/
def greatestExponent : Int := 971

/-- The number nearest to `n / d`. -/
def ofRatio (n d : Nat) : Magnitude :=
  if n = 0 then .finite 0 leastExponent
  else
    let scaled (e : Int) : Nat :=
      roundDiv (n * Nat.pow 2 (-e).toNat) (d * Nat.pow 2 e.toNat)
    let guess : Int := (n.log2 : Int) - (d.log2 : Int) - 52
    let fits (e : Int) : Bool :=
      d * Nat.pow 2 e.toNat * Nat.pow 2 52 ≤ n * Nat.pow 2 (-e).toNat
    let e := max (if fits guess then guess else guess - 1) leastExponent
    let m := scaled e
    let (m, e) := if m = Nat.pow 2 53 then (Nat.pow 2 52, e + 1) else (m, e)
    if greatestExponent < e then .infinite else .finite m e

/-- The number nearest to a whole number. -/
def ofNat (n : Nat) : Magnitude := ofRatio n 1

/-- The numerator of a finite number. -/
def numerator (significand : Nat) (exponent : Int) : Nat :=
  significand * Nat.pow 2 exponent.toNat

/-- The denominator of a finite number. -/
def denominator (exponent : Int) : Nat := Nat.pow 2 (-exponent).toNat

/-- The sum of two numbers. -/
def add : Magnitude → Magnitude → Magnitude
  | .finite m e, .finite k f =>
    ofRatio (numerator m e * denominator f + numerator k f * denominator e)
      (denominator e * denominator f)
  | _, _ => .infinite

/-- The product of two finite numbers. -/
def mul : Magnitude → Magnitude → Magnitude
  | .finite m e, .finite k f =>
    ofRatio (numerator m e * numerator k f) (denominator e * denominator f)
  | _, _ => .infinite

/-- The quotient of two finite numbers, the second one not zero. -/
def div : Magnitude → Magnitude → Magnitude
  | .finite m e, .finite k f =>
    ofRatio (numerator m e * denominator f) (denominator e * numerator k f)
  | _, _ => .infinite

/-- The number nearest to `digits * 10 ^ exponent`. An exponent far beyond the range
gives the limit at once. -/
def ofDecimal (digits : Nat) (exponent : Int) : Magnitude :=
  if digits = 0 then .finite 0 leastExponent
  else if 400 < exponent then .infinite
  else if exponent + (digits.log2 : Int) < -400 then .finite 0 leastExponent
  else ofRatio (digits * Nat.pow 10 exponent.toNat) (Nat.pow 10 (-exponent).toNat)

end Magnitude

/-- A signed number of 64 bits, or what is no number. -/
inductive Binary64 where
  /-- A number with its sign, zero included. -/
  | signed (negative : Bool) (size : Magnitude)
  /-- No number. -/
  | nan
  deriving DecidableEq, Repr

end FlameFold.Decimal
