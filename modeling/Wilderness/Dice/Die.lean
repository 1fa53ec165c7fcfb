/-!
# Dice by their number of sides

The dice of a gaming set have names of their own; any other number of sides is allowed too.
-/

namespace Wilderness

/-- A die.  A die with an odd number of sides, or with none, is an `other` one; an `other` die may
have as many sides as a named one and is still told apart from it. -/
inductive Die where
  | d4
  | d6
  | d8
  | d10
  | d12
  | other (sides : UInt32)
deriving DecidableEq, Repr

namespace Die

/-- The number of sides. -/
def sides : Die → UInt32
  | d4 => 4
  | d6 => 6
  | d8 => 8
  | d10 => 10
  | d12 => 12
  | other n => n

/-- The die with so many sides, a named one if there is one. -/
def ofSides (n : UInt32) : Die :=
  if n = 4 then d4
  else if n = 6 then d6
  else if n = 8 then d8
  else if n = 10 then d10
  else if n = 12 then d12
  else other n

/-- The short name, such as `d6`. -/
def render (die : Die) : String :=
  "d" ++ die.sides.toNat.repr

theorem sides_ofSides (n : UInt32) : (ofSides n).sides = n := by
  unfold ofSides
  repeat' split
  all_goals simp_all [sides]

end Die

end Wilderness
