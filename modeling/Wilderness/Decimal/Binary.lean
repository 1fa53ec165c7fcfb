/-!
# Binary numbers

The exact value of a double, taken from its bits: a finite one is a whole number times a power of
two.
-/

namespace Wilderness.Decimal

/-- The magnitude `mantissa * 2 ^ exponent` of a finite double.  `lowGapHalved` says that the
next smaller double is only half as far away as the next larger one. -/
structure Binary where
  mantissa : Nat
  exponent : Int
  lowGapHalved : Bool
deriving DecidableEq, Repr

/-- What the bits of a double say, its sign apart. -/
inductive Magnitude where
  | nan
  | infinite
  | finite (value : Binary)
deriving DecidableEq, Repr

/-- The sign bit of a double. -/
def isNegative (x : Float) : Bool :=
  x.toBits.toNat / Nat.pow 2 63 == 1

/-- The magnitude of a double: 52 fraction bits under eleven exponent bits, where the least
exponent marks a subnormal number and the greatest a number that is not finite. -/
def magnitude (x : Float) : Magnitude :=
  let fraction := x.toBits.toNat % Nat.pow 2 52
  let biased : Nat := x.toBits.toNat / Nat.pow 2 52 % Nat.pow 2 11
  if biased = 2047 then
    if fraction = 0 then .infinite else .nan
  else if biased = 0 then
    .finite ⟨fraction, -1074, false⟩
  else
    .finite ⟨Nat.pow 2 52 + fraction, (biased : Int) - 1075, fraction == 0 && biased > 1⟩

/-- Numerator and denominator of the power `base ^ exponent`. -/
def powerRatio (base : Nat) (exponent : Int) : Nat × Nat :=
  (Nat.pow base exponent.toNat, Nat.pow base (-exponent).toNat)

example : magnitude 1.5 = .finite ⟨3 * 2 ^ 51, -52, false⟩ := by decide +kernel
example : magnitude 1.0 = .finite ⟨2 ^ 52, -52, true⟩ := by decide +kernel
example : magnitude (1.0 / 0.0) = .infinite := by decide +kernel
example : magnitude (0.0 / 0.0) = .nan := by decide +kernel

end Wilderness.Decimal
