/-!
# Rounding quotients

The whole number nearest to a quotient of two whole numbers; a quotient half way
between two goes to the even one.
-/

namespace FlameFold.Decimal

/-- The whole number nearest to `n / d`, the even one of two. -/
def roundDiv (n d : Nat) : Nat :=
  let q := n / d
  let twice := 2 * (n % d)
  if d < twice ∨ (d = twice ∧ q % 2 = 1) then q + 1 else q

/-- A number of hundredths with two digits after the point. -/
def hundredths (n : Nat) : String :=
  let rest := n % 100
  Nat.repr (n / 100) ++ "." ++ (if rest < 10 then "0" else "") ++ Nat.repr rest

end FlameFold.Decimal
