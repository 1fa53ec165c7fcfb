import Wilderness.Decimal.Layout
import Wilderness.Dice.Throw.Written

/-!
# Monsters

The statistics of a monster, and the groups in which it appears.  The danger of a group is its
total of equivalent hit dice: so much for each creature, or the level of a leader and the sum of a
throw for each retainer.
-/

namespace Wilderness

/-- What a group is worth in equivalent hit dice. -/
inductive Worth where
  /-- Every creature is worth the same. -/
  | each (hitDice : UInt32)
  /-- A leader is worth a level, and every one of an entourage a throw of its own. -/
  | leader (level : UInt32) (entourage retainer : Throw)
deriving DecidableEq, Repr

/-- The statistics of a kind of monster. -/
structure Monster where
  name : String
  /-- The number of creatures that appear together. -/
  number : Throw
  /-- Hit dice; tenths stand for pips, a half and three quarters for less than a die. -/
  hitDice : Float
  worth : Worth
deriving DecidableEq, Repr

/-- The creatures that were met. -/
structure Group where
  /-- How many they are, with their leader if they have one. -/
  quantity : UInt32
  /-- What they are worth together. -/
  total : UInt32
deriving DecidableEq, Repr

/-- Sweeps reduce groups of creatures with at most so many hit dice. -/
def sweepHitDice : Float := 1.0

namespace Monster

/-- A kind of monster whose creatures are each worth the same. -/
def creature (name : String) (number : Throw) (hitDice : Float) (worth : UInt32) : Monster where
  name := name
  number := number
  hitDice := hitDice
  worth := .each worth

/-- A kind of monster whose number is given in its written form. -/
def ofWritten (name number : String) (hitDice : Float) (worth : UInt32) :
    Except ThrowError Monster :=
  (Throw.parse number).map fun number => creature name number hitDice worth

/-- A leader of a level, with an entourage of so many retainers that are each worth so much. -/
def withEntourage (name : String) (level : UInt32) (entourage retainer : Throw) : Monster where
  name := name
  number := .constant 1
  hitDice := .ofNat level.toNat
  worth := .leader level entourage retainer

/-- A leader of a level, with the usual entourage. -/
def leader (name : String) (level : UInt32) : Monster :=
  withEntourage name level (dice 2 6) (dice 1 4)

/-- The number of retainers in the usual entourage, in its written form. -/
def usualEntourage : String :=
  "2d6"

/-- The worth of a retainer of the usual entourage, in its written form. -/
def usualRetainer : String :=
  "1d4"

/-- A leader of a level, whose usual entourage is read from its written form. -/
def ofLevel (name : String) (level : UInt32) : Except ThrowError Monster := do
  let entourage ← Throw.parse usualEntourage
  let retainer ← Throw.parse usualRetainer
  return withEntourage name level entourage retainer

theorem parse_usualEntourage : Throw.parse usualEntourage = .ok (dice 2 6) :=
  rfl

theorem parse_usualRetainer : Throw.parse usualRetainer = .ok (dice 1 4) :=
  rfl

/-- The usual entourage can be read, so every level has its leader. -/
theorem ofLevel_eq (name : String) (level : UInt32) :
    ofLevel name level = .ok (leader name level) := by
  rw [ofLevel, parse_usualEntourage, parse_usualRetainer]
  rfl

/-- Whether a group counts for a quarter only, because it falls to sweeps. -/
def isSwept (monster : Monster) : Bool :=
  match monster.worth with
  | .each _ => monster.hitDice ≤ sweepHitDice
  | .leader .. => false

/-! ## Hit dice in print -/

/-- The part behind the point.  Doubles from `2 ^ 53` on are whole. -/
def fraction (x : Float) : Float :=
  if x < 9007199254740992.0 then x - x.toUInt64.toFloat else 0.0

/-- The nearest count, a half going up; a negative number counts as nothing. -/
def nearestCount (x : Float) : UInt32 :=
  let below := x.toUInt32
  if x - below.toFloat ≥ 0.5 then below + 1 else below

/-- Hit dice as they stand in a table: whole dice, `1/2`, `1-1`, or dice and pips. -/
def hitDiceLabel (monster : Monster) : String :=
  let whole := monster.hitDice.toUInt32
  let hundredths := nearestCount (fraction monster.hitDice * 100.0)
  if hundredths = 0 then whole.toNat.repr
  else if whole = 0 ∧ hundredths = 50 then "1/2"
  else if whole = 0 ∧ hundredths = 75 then "1-1"
  else if 0 < whole ∧ hundredths % 10 = 0 then
    whole.toNat.repr ++ "+" ++ (hundredths / 10).toNat.repr
  else Decimal.plain.write monster.hitDice

/-! ## Groups -/

/-- The worth of a number of retainers, added to a total.  Negative throws count as nothing. -/
def sumRetainers (retainer : Throw) : (count : Nat) → (total : UInt32) → Rolling Fault UInt32
  | 0, total => .done total
  | count + 1, total => do
    let worth ← retainer.rollAtLeast 0
    sumRetainers retainer count (tally (total.toNat + (tally worth).toNat))

/-- The worth of an entourage.  Retainers whose worth takes no dice are multiplied, not summed. -/
def rollRetainers (retainer : Throw) (count : Nat) : Rolling Fault UInt32 :=
  if retainer.isConstant then
    .done (tally (count * (tally retainer.modifier.toInt).toNat))
  else
    sumRetainers retainer count 0

/-- A group of creatures: at least one, or a leader and whatever entourage comes along.  The worth
of creatures that fall to sweeps is capped before it is quartered. -/
def rollGroup (monster : Monster) : Rolling Fault Group :=
  match monster.worth with
  | .each hitDice => do
    let quantity := tally (← monster.number.rollAtLeast 1)
    let total := tally (quantity.toNat * hitDice.toNat)
    return { quantity, total := if monster.isSwept then total / 4 else total }
  | .leader level entourage retainer => do
    let retainers := tally (← entourage.rollAtLeast 0)
    let worth ← rollRetainers retainer retainers.toNat
    return { quantity := tally (retainers.toNat + 1), total := tally (level.toNat + worth.toNat) }

end Monster

end Wilderness
