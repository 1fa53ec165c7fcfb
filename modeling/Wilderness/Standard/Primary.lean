import Wilderness.Standard.SubTables

/-!
# The standard primary tables

Every terrain has a table for an eight-sided die, and every row leads to a sub-table.
-/

namespace Wilderness.Standard

/-- The sub-tables that the rolls of a terrain lead to. -/
def primaryRows : Terrain → List (UInt32 × UInt32 × Sheet)
  | .clear =>
    [(1, 1, .menTypical), (2, 2, .flyers), (3, 3, .giants), (4, 4, .lycanthropes), (5, 5, .animals),
     (6, 6, .menTypical), (7, 7, .animals), (8, 8, .dragons)]
  | .woods =>
    [(1, 1, .menTypical), (2, 2, .flyers), (3, 3, .giants), (4, 5, .lycanthropes),
     (6, 6, .menTypical), (7, 7, .animals), (8, 8, .dragons)]
  | .river =>
    [(1, 1, .menWater), (2, 2, .flyers), (3, 3, .giants), (4, 4, .lycanthropes), (5, 6, .swimmers),
     (7, 7, .animals), (8, 8, .dragons)]
  | .swamp =>
    [(1, 1, .menTypical), (2, 2, .flyers), (3, 3, .giants), (4, 4, .lycanthropes),
     (5, 5, .swimmers), (6, 7, .undead), (8, 8, .dragons)]
  | .mountain =>
    [(1, 1, .menMountain), (2, 2, .flyers), (3, 3, .giants), (4, 4, .lycanthropes),
     (5, 5, .animals), (6, 6, .giants), (7, 8, .dragons)]
  | .desert =>
    [(1, 1, .menDesert), (2, 2, .flyers), (3, 3, .giants), (4, 4, .lycanthropes), (5, 5, .animals),
     (6, 6, .menDesert), (7, 7, .dragons), (8, 8, .undead)]
  | .city =>
    [(1, 1, .menTypical), (2, 2, .undead), (3, 3, .giants), (4, 4, .lycanthropes),
     (5, 7, .menTypical), (8, 8, .undead)]

/-- The primary table of a terrain as it is written down. -/
def primarySheet (terrain : Terrain) : Sheet where
  name := terrain.name
  die := .d8
  rows := (primaryRows terrain).map fun (low, high, subTable) => (low, high, subTable.name)

/-- The primary table of a terrain, unless its rows do not tile the die. -/
def loadPrimary (terrain : Terrain) : Except Flaw (RollTable Entry) :=
  (primarySheet terrain).build .subTable

/-- The primary tables of all terrains. -/
def loadPrimaries : Except Flaw (List (Terrain × RollTable Entry)) :=
  Terrain.all.mapM fun terrain => (loadPrimary terrain).map fun table => (terrain, table)

/-- The primary table of a terrain as it loads. -/
def primary (terrain : Terrain) : RollTable Entry :=
  (loadPrimary terrain).toOption.get (by cases terrain <;> decide +kernel)

end Wilderness.Standard
