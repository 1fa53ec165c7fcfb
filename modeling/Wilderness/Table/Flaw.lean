import Wilderness.Decimal.Layout
import Wilderness.Dice.Die
import Wilderness.Table.Entry
import Wilderness.Terrain

/-!
# Flaws of tables

What may be wrong with a table, with the statistics of the monsters, or between tables that refer
to each other.
-/

namespace Wilderness

/-- The range of a row in print: one number if the row has a single roll. -/
def rangeLabel (low high : UInt32) : String :=
  if low = high then low.toNat.repr else low.toNat.repr ++ "-" ++ high.toNat.repr

/-- What is wrong. -/
inductive Defect where
  /-- The die of the table has no sides. -/
  | noSides
  /-- A row ends before it begins. -/
  | emptyRange (low high : UInt32)
  /-- A row begins at zero, which no die shows. -/
  | startsAtZero
  /-- A row begins within the rows before it. -/
  | overlap (low high : UInt32)
  /-- No row has this roll. -/
  | uncovered (roll : Nat)
  /-- A row ends beyond the last side of the die. -/
  | exceeds (low high : UInt32) (die : Die)
  /-- The hit dice of a monster are no non-negative number. -/
  | hitDice (value : Float)
  /-- A row of a family leads to another family. -/
  | familyVariant (variant : String)
  /-- A row of a family leads to a monster without statistics. -/
  | unlistedVariant (variant : String)
  /-- A terrain has no table at all. -/
  | noPrimaryTable
  /-- A row leads to a monster without statistics. -/
  | unlistedMonster (name : String)
  /-- A row leads to a sub-table that is missing. -/
  | missingSubTable (name : String)
  /-- A row of a sub-table does not lead to a monster. -/
  | nestedSubTable (entry : Entry)
  /-- A roll on a sub-table did not lead to a monster. -/
  | nestedRoll (roll : UInt32) (entry : Entry)
deriving DecidableEq

/-- The defect in words. -/
def Defect.reason : Defect → String
  | noSides => "die has no sides"
  | emptyRange low high => "empty range " ++ low.toNat.repr ++ "-" ++ high.toNat.repr
  | startsAtZero => "rolls start at 1"
  | overlap low high => "range " ++ rangeLabel low high ++ " overlaps an earlier row"
  | uncovered roll => "no row covers roll " ++ roll.repr
  | exceeds low high die => "range " ++ rangeLabel low high ++ " exceeds " ++ die.render
  | hitDice value => "invalid hit dice " ++ Decimal.plain.write value
  | familyVariant variant => "variant '" ++ variant ++ "' is itself a family"
  | unlistedVariant variant => "variant '" ++ variant ++ "' is not catalogued"
  | noPrimaryTable => "terrain has no primary table"
  | unlistedMonster name => "monster '" ++ name ++ "' is not catalogued"
  | missingSubTable name => "sub-table '" ++ name ++ "' does not exist"
  | nestedSubTable entry => "sub-tables cannot nest, found " ++ entry.render
  | nestedRoll roll entry => "roll " ++ roll.toNat.repr ++ " leads to nested " ++ entry.render

/-- A defect and the name of the table that has it. -/
structure Flaw where
  table : String
  defect : Defect
deriving DecidableEq

/-- The flaw in words. -/
def Flaw.message (flaw : Flaw) : String :=
  "table '" ++ flaw.table ++ "' is malformed: " ++ flaw.defect.reason

end Wilderness
