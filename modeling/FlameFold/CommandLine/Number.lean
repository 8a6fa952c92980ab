/-!
# Whole numbers in words

Digits of base ten after an optional sign, for a number that has to lie between two bounds.
The first character that is no digit, or that carries the number over a bound, is the
fault.
-/

namespace FlameFold.CommandLine

/-- Why a word is no number. -/
inductive NumberFault where
  /-- There are no characters. -/
  | empty
  /-- A character is no digit. -/
  | notADigit
  /-- The number lies above its upper bound. -/
  | tooLarge
  /-- The number lies below its lower bound. -/
  | tooSmall
  deriving DecidableEq, Repr

/-- The wording of the fault. -/
def NumberFault.message : NumberFault → String
  | .empty => "cannot parse integer from empty string"
  | .notADigit => "invalid digit found in string"
  | .tooLarge => "number too large to fit in target type"
  | .tooSmall => "number too small to fit in target type"

/-- Read digits on top of the number `n`, which may not pass `bound`. -/
def readDigits (bound : Nat) (overflow : NumberFault) : Nat → List Char → Except NumberFault Nat
  | n, [] => .ok n
  | n, c :: cs =>
    if !c.isDigit then .error .notADigit
    else
      let next := 10 * n + (c.toNat - 48)
      if bound < next then .error overflow else readDigits bound overflow next cs

/-- Read a number that is not negative, up to a bound. -/
def readNatural (bound : Nat) (word : String) : Except NumberFault Nat :=
  match word.toList with
  | [] => .error .empty
  | ['+'] => .error .notADigit
  | '+' :: digits => readDigits bound .tooLarge 0 digits
  | digits => readDigits bound .tooLarge 0 digits

/-- Read a number of 64 bits with a sign. -/
def readSigned (word : String) : Except NumberFault Int :=
  match word.toList with
  | ['-'] => .error .notADigit
  | '-' :: digits => (readDigits (Nat.pow 2 63) .tooSmall 0 digits).map fun n => -(n : Int)
  | _ => (readNatural (Nat.pow 2 63 - 1) word).map fun n => (n : Int)

end FlameFold.CommandLine
