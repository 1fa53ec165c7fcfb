import Wilderness.Saturation
import Wilderness.Dice.Rolling

/-!
# Throws of dice

A throw adds the faces of some equal dice, scales the sum and adds a modifier: `3d10x10`, `1d6/3`,
`2d6+2`.  A throw of no dice is a constant.
-/

namespace Wilderness

/-- What is done to the sum of the faces. -/
inductive Scaling where
  /-- The sum is multiplied. -/
  | times (factor : UInt32)
  /-- The sums are put into bands of so many neighbours, numbered from one. -/
  | bands (width : UInt32)
deriving DecidableEq, Repr

/-- A failure of arithmetic. -/
inductive Fault where
  /-- Sums were to be put into bands of no width. -/
  | divisionByZero
deriving DecidableEq, Repr

/-- What a fault is called. -/
def Fault.message : Fault → String
  | divisionByZero => "attempt to divide by zero"

/-- The number of a multiplier or of a band width. -/
def Scaling.factor : Scaling → UInt32
  | times n => n
  | bands n => n

/-- The scaled sum, capped to the range of totals. -/
def Scaling.apply : Scaling → Int → Except Fault Int
  | times n, sum => .ok (saturate (sum * n.toNat))
  | bands n, sum =>
    if n = 0 then .error .divisionByZero else .ok ((sum - 1) / (n.toNat : Int) + 1)

/-- A throw of `count` dice. -/
structure Throw where
  count : UInt32
  sides : UInt32
  scaling : Scaling := .times 1
  modifier : Int64 := 0
deriving DecidableEq, Repr

/-- So many plain dice. -/
def dice (count sides : UInt32) (scaling : Scaling := .times 1) (modifier : Int64 := 0) : Throw :=
  { count, sides, scaling, modifier }

namespace Throw

/-- The throw without dice that always gives `value`. -/
def constant (value : Int64) : Throw :=
  { count := 0, sides := 0, modifier := value }

/-- Whether there are no dice to roll. -/
def isConstant (t : Throw) : Bool :=
  t.count == 0

/-- The most dice that the written form of a throw may have. -/
def greatestDice : UInt32 := 100

/-- The most sides that a die of a written throw may have. -/
def greatestSides : UInt32 := 1000

/-- The greatest multiplier or band width of a written throw. -/
def greatestFactor : UInt32 := 1000

/-- Whether the dice, the sides and the scaling are small enough for the written form. -/
def isWithinLimits (t : Throw) : Bool :=
  t.count ≤ greatestDice && t.sides ≤ greatestSides && t.scaling.factor ≤ greatestFactor

/-- The value for a sum of faces: scaled, then modified.  A constant has no sum to look at. -/
def adjust (t : Throw) (sum : Int) : Except Fault Int :=
  if t.isConstant then .ok t.modifier.toInt
  else (t.scaling.apply sum).map fun scaled => saturate (scaled + t.modifier.toInt)

/-- The exact sum of the next `count` faces, added to `sum`. -/
def sumFaces {ε : Type} (sides : UInt32) : (count sum : Nat) → Rolling ε Nat
  | 0, sum => .done sum
  | count + 1, sum => .ask sides fun face => sumFaces sides count (sum + face.toNat)

/-- The throw as a procedure: all dice are rolled before anything is done to their sum. -/
def roll (t : Throw) : Rolling Fault Int := do
  let sum ← sumFaces t.sides t.count.toNat 0
  .ofExcept (t.adjust (saturate sum))

/-- The throw with any lesser value raised to `floor`. -/
def rollAtLeast (t : Throw) (floor : Int) : Rolling Fault Int := do
  return max (← t.roll) floor

/-- The least value: every face is a one. -/
def least (t : Throw) : Except Fault Int :=
  t.adjust t.count.toNat

/-- The greatest value: every face is the last one. -/
def greatest (t : Throw) : Except Fault Int :=
  t.adjust (saturate (t.count.toNat * t.sides.toNat))

end Throw

end Wilderness
