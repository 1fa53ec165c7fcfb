import Wilderness.Atlas
import Wilderness.Standard.Monsters
import Wilderness.Standard.Primary

/-!
# The standard atlas

The tables and monsters of the standard game fit together.  `Standard.load` makes the atlas out of
what is written down.
-/

namespace Wilderness

/-- Why written tables and monsters do not make an atlas. -/
inductive LoadError where
  /-- A number or a worth cannot be read. -/
  | unreadable (error : ThrowError)
  | flaw (flaw : Flaw)
deriving DecidableEq

/-- The error in words. -/
def LoadError.message : LoadError → String
  | .unreadable error => error.message
  | .flaw found => found.message

namespace Standard

/-- The bestiary: creatures, leaders, and families at last. -/
def loadBestiary : Except LoadError Bestiary := do
  let creatures ← loadCreatures.mapError .unreadable
  let leaders ← loadLeaders.mapError .unreadable
  let families ← loadFamilies.mapError .flaw
  return catalogue (creatures ++ leaders) families

/-- The atlas.  All tables are built before the monsters are read, and at the end everything is
checked together. -/
def load : Except LoadError Atlas := do
  let primary ← loadPrimaries.mapError .flaw
  let subTables ← loadSubTables.mapError .flaw
  let bestiary ← loadBestiary
  (Atlas.build primary subTables bestiary).mapError .flaw

end Standard

/-- The standard tables with their monsters. -/
def Atlas.standard : Atlas where
  primary := Standard.primary
  subTables := .ofList Standard.subTables
  bestiary := Standard.bestiary
  flawless := by decide +kernel

end Wilderness
