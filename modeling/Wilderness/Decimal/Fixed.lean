import Wilderness.Decimal.Layout

/-!
# Decimals of fixed width

A double rounded to a number of decimal places, from its exact value.
-/

namespace Wilderness.Decimal

/-- A quotient rounded to the nearest whole number; a half goes to the even neighbour. -/
def roundDiv (num den : Nat) : Nat :=
  let below := num / den
  match compare (2 * num) ((2 * below + 1) * den) with
  | .lt => below
  | .gt => below + 1
  | .eq => if below % 2 == 0 then below else below + 1

/-- The double with exactly so many places behind the point. -/
def fixed (places : Nat) (x : Float) : String :=
  match magnitude x with
  | .nan => plain.nan
  | .infinite => if isNegative x then plain.negativeInfinity else plain.infinity
  | .finite b =>
    let (num, den) := powerRatio 2 b.exponent
    let scaled := roundDiv (b.mantissa * num * Nat.pow 10 places) den
    let text := (Literal.mk scaled (-places)).positional false
    if isNegative x then "-" ++ text else text

end Wilderness.Decimal
