import Wilderness.Atlas
import Wilderness.Command.Grid

/-!
# Listings of tables

All tables that an encounter of a terrain may be rolled on: the table of the terrain, the
sub-tables that it leads to, and the families that those lead to, each only once.
-/

namespace Wilderness.Command

/-- A table under a heading. -/
structure Section where
  title : String
  die : Die
  grid : Grid
deriving DecidableEq, Repr

/-- The heading and the table, with a blank line behind each. -/
def Section.render (part : Section) : String :=
  "  " ++ part.title ++ " (" ++ part.die.render ++ ")\n\n" ++ part.grid.render ++ "\n"

/-- The texts without those that occur earlier. -/
def distinct {α β : Type} [BEq β] (key : α → β) (values : List α) : List α :=
  values.foldl
    (fun found value => if found.any (key · == key value) then found else found ++ [value]) []

/-- What a creature, or a leader with an entourage, is worth. -/
def describeWorth (monster : Monster) : String :=
  match monster.worth with
  | .each hitDice => hitDice.toNat.repr ++ " each" ++ (if monster.isSwept then ", /4" else "")
  | .leader level entourage retainer =>
    level.toNat.repr ++ " + " ++ entourage.render ++ " x " ++ retainer.render

/-- The number, the hit dice and the worth of whatever a name stands for. -/
def describe (bestiary : Bestiary) (name : String) : List String :=
  match bestiary.get? name with
  | some (.single monster) =>
    [monster.number.render, monster.hitDiceLabel, describeWorth monster]
  | some (.family variants) => ["see " ++ variants.name, "", ""]
  | none => ["", "", ""]

/-- A table of monsters with their statistics. -/
def monsterSection {α : Type} (bestiary : Bestiary) (name : α → String) (table : RollTable α) :
    Section where
  title := table.name
  die := table.die
  grid := {
    titles := ["Roll", "Monster", "Number", "Hit Dice", "EHD"]
    rows := table.rows.map fun row =>
      row.label :: name row.value :: describe bestiary (name row.value) }

/-- The table of a terrain. -/
def primarySection (terrain : Terrain) (table : RollTable Entry) : Section where
  title := terrain.name ++ " encounters"
  die := table.die
  grid := {
    titles := ["Roll", "Result"]
    rows := table.rows.map fun row => [row.label, row.value.render] }

/-- The sub-tables that a table leads to. -/
def subTablesOf (atlas : Atlas) (table : RollTable Entry) : List (RollTable Entry) :=
  distinct RollTable.name <| table.values.filterMap fun
    | .subTable name => atlas.subTable? name
    | .monster _ => none

/-- The families that some tables lead to. -/
def familiesOf (atlas : Atlas) (tables : List (RollTable Entry)) : List (RollTable String) :=
  distinct RollTable.name <| (tables.flatMap RollTable.values).filterMap fun
    | .monster name =>
      match atlas.bestiary.get? name with
      | some (.family variants) => some variants
      | _ => none
    | .subTable _ => none

/-- All tables of a terrain. -/
def sectionsOf (atlas : Atlas) (terrain : Terrain) : List Section :=
  let primary := atlas.primary terrain
  let subTables := subTablesOf atlas primary
  primarySection terrain primary ::
    subTables.map (monsterSection atlas.bestiary Entry.render) ++
    (familiesOf atlas subTables).map (monsterSection atlas.bestiary id)

/-- All tables of a terrain as a text. -/
def showTables (atlas : Atlas) (terrain : Terrain) : String :=
  String.join ((sectionsOf atlas terrain).map Section.render)

end Wilderness.Command
