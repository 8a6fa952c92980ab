import FlameFold.Decimal.Binary64

/-!
# Shortest decimals

The decimal with the fewest digits that reads back as a given number, and of those
the nearest one; of two that are equally near a style says which. For each number of
digits the two neighbours of the number on that decimal grid are tried.
-/

namespace FlameFold.Decimal

/-- The decimal number `digits * 10 ^ exponent`. -/
structure Scientific where
  /-- The digits as a whole number. -/
  digits : Nat
  /-- The power of ten. -/
  exponent : Int
  deriving DecidableEq, Repr

/-- Which of two equally near decimals is taken. -/
inductive Tie where
  /-- The greater one. -/
  | up
  /-- The one with an even last digit. -/
  | toEven
  deriving DecidableEq, Repr

namespace Scientific

/-- Drop the zeros at the end of the digits, at most `fuel` of them. -/
def trimZeros : Nat → Scientific → Scientific
  | 0, s => s
  | fuel + 1, s =>
    if s.digits ≠ 0 ∧ s.digits % 10 = 0 then trimZeros fuel ⟨s.digits / 10, s.exponent + 1⟩ else s

/-- The numbers that round to `m * 2 ^ e`, in quarters of `2 ^ e`: the least, the
number itself and the greatest, and whether the ends belong to them. -/
def interval (m : Nat) (e : Int) : Nat × Nat × Nat × Bool :=
  let low := if m = Nat.pow 2 52 ∧ Magnitude.leastExponent < e then 4 * m - 1 else 4 * m - 2
  (low, 4 * m, 4 * m + 2, m % 2 = 0)

/-- The decimal on the grid of `10 ^ unit` that reads back as `m * 2 ^ e`, the
nearer one of two. -/
def onGrid (tie : Tie) (m : Nat) (e unit : Int) : Option Scientific :=
  let (low, here, high, closed) := interval m e
  let scale := Nat.pow 2 e.toNat * Nat.pow 10 (-unit).toNat
  let grid := 4 * Nat.pow 2 (-e).toNat * Nat.pow 10 unit.toNat
  let inside (c : Nat) : Bool :=
    if closed then low * scale ≤ c * grid ∧ c * grid ≤ high * scale
    else low * scale < c * grid ∧ c * grid < high * scale
  let below := here * scale / grid
  let above := below + 1
  let middle := (below + above) * grid
  let nearerBelow :=
    2 * (here * scale) < middle ∨ (2 * (here * scale) = middle ∧ tie = .toEven ∧ below % 2 = 0)
  if inside below ∧ (nearerBelow ∨ ¬ inside above) then some ⟨below, unit⟩
  else if inside above then some ⟨above, unit⟩
  else none

/-- A power of ten above `m * 2 ^ e`, and not far above it. -/
def ceiling (m : Nat) (e : Int) : Int :=
  -- 30103 / 100000 is a little more than the decimal logarithm of two
  ((m.log2 : Int) + 1 + e) * 30103 / 100000 + 1

/-- Try grids with more and more digits. -/
def search (tie : Tie) (m : Nat) (e top : Int) : Nat → Nat → Scientific
  | 0, _ => ⟨m * Nat.pow 2 e.toNat, 0⟩
  | tries + 1, digits =>
    match onGrid tie m e (top - (digits : Int)) with
    | some found => found
    | none => search tie m e top tries (digits + 1)

/-- The shortest decimal that reads back as `m * 2 ^ e`. -/
def shortest (tie : Tie) (m : Nat) (e : Int) : Scientific :=
  if m = 0 then ⟨0, 0⟩ else trimZeros 400 (search tie m e (ceiling m e) 20 0)

/-- The digits in positional notation: zeros fill the places up to the point. -/
def positional (s : Scientific) : String :=
  let text := (Nat.repr s.digits).toList
  if 0 ≤ s.exponent then
    if s.digits = 0 then "0"
    else String.ofList (text ++ List.replicate s.exponent.toNat '0')
  else
    let places := (-s.exponent).toNat
    let padded := List.replicate (places + 1 - text.length) '0' ++ text
    let whole := padded.length - places
    String.ofList (padded.take whole ++ '.' :: padded.drop whole)

/-- The power of ten of the first digit. -/
def leading (s : Scientific) : Int :=
  ((Nat.repr s.digits).length : Int) - 1 + s.exponent

/-- The text with a point in it, if need be with a zero after it. -/
def withPoint (text : String) : String :=
  if text.toList.contains '.' then text else text ++ ".0"

/-- One digit, a point, the other digits, and the power of ten with its sign. -/
def exponential (s : Scientific) : String :=
  let power := s.leading
  let mantissa := match (Nat.repr s.digits).toList with
    | first :: second :: rest => String.ofList (first :: '.' :: second :: rest)
    | short => String.ofList short
  mantissa ++ "e" ++ (if power < 0 then "-" else "+") ++ Nat.repr power.natAbs

end Scientific

/-- How a number is written: which numbers positionally, the others with an exponent. -/
structure Style where
  /-- The least and the greatest power of ten of the first digit, if there is one. -/
  range : Option (Int × Int)
  /-- Whether a whole number gets a point and a zero. -/
  pointed : Bool
  /-- Which of two equally near decimals is taken. -/
  tie : Tie

namespace Style

/-- Positional, without a point where none is needed. -/
def plain : Style := ⟨none, false, .up⟩

/-- Positional, with a point in every number. -/
def withPoint : Style := ⟨none, true, .up⟩

/-- Positional from `0.00001` up to below `10 ^ 16`, with a point. -/
def bounded : Style := ⟨some (-5, 15), true, .toEven⟩

/-- The text of a finite size. -/
def size (style : Style) (m : Nat) (e : Int) : String :=
  let s := Scientific.shortest style.tie m e
  let text := Scientific.positional s
  let text := if style.pointed then Scientific.withPoint text else text
  match style.range with
  | none => text
  | some (least, greatest) =>
    if s.digits = 0 ∨ (least ≤ s.leading ∧ s.leading ≤ greatest) then text else s.exponential

/-- The text of a number. -/
def text (style : Style) : Binary64 → String
  | .nan => "NaN"
  | .signed negative magnitude =>
    (if negative then "-" else "") ++ match magnitude with
      | .infinite => "inf"
      | .finite m e => style.size m e

end Style

end FlameFold.Decimal
