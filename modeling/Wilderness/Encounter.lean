import Wilderness.Atlas

/-!
# Encounters

An encounter is rolled in up to four steps: on the table of the terrain, on a sub-table, on the
table of a family, and at last for the group.
-/

namespace Wilderness

/-- What a party meets. -/
structure Encounter where
  terrain : Terrain
  /-- The name of the one kind of monster that is met. -/
  monster : String
  quantity : UInt32
  /-- The worth of the whole group in hit dice. -/
  total : UInt32
deriving DecidableEq, Repr

/-- Why an encounter could not be rolled to its end. -/
inductive EncounterError where
  | flaw (flaw : Flaw)
  | offTable (miss : OffTable)
  | unknownSubTable (name : String)
  | unknownMonster (name : String)
  | fault (fault : Fault)
deriving DecidableEq

/-- The error in words. -/
def EncounterError.message : EncounterError → String
  | .flaw found => found.message
  | .offTable miss => miss.message
  | .unknownSubTable name => "unknown sub-table: " ++ name
  | .unknownMonster name => "unknown monster: " ++ name
  | .fault failure => failure.message

/-- A name that leads to no monster, as the failure of an encounter. -/
def EncounterError.ofUnidentified : Unidentified → EncounterError
  | .unknown name => .unknownMonster name
  | .flaw found => .flaw found
  | .offTable miss => .offTable miss

namespace Atlas

/-- The monster of a name, as a part of an encounter. -/
def identify (atlas : Atlas) (name : String) : Rolling EncounterError Monster :=
  (atlas.bestiary.identify name).mapError .ofUnidentified

/-- The monster that an entry leads to, by way of a sub-table if need be. -/
def resolve (atlas : Atlas) : Entry → Rolling EncounterError Monster
  | .monster name => atlas.identify name
  | .subTable name =>
    match atlas.subTable? name with
    | none => .fail (.unknownSubTable name)
    | some table => do
      let (roll, entry) ← table.roll.mapError .offTable
      match entry with
      | .monster name => atlas.identify name
      | .subTable _ => .fail (.flaw ⟨table.name, .nestedRoll roll entry⟩)

/-- One encounter in a terrain. -/
def encounter (atlas : Atlas) (terrain : Terrain) : Rolling EncounterError Encounter := do
  let (_, entry) ← (atlas.primary terrain).roll.mapError .offTable
  let monster ← atlas.resolve entry
  let group ← monster.rollGroup.mapError .fault
  return { terrain, monster := monster.name, quantity := group.quantity, total := group.total }

end Atlas

end Wilderness
