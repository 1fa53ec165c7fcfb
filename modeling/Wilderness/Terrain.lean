/-!
# Terrains

The kinds of country that a party travels through, each with encounters of its own.
-/

namespace Wilderness

/-- The country around a party. -/
inductive Terrain where
  /-- Open plains and farmland. -/
  | clear
  /-- Forest. -/
  | woods
  /-- Along a river or lake. -/
  | river
  /-- Marsh and bog. -/
  | swamp
  /-- Hills and mountains. -/
  | mountain
  /-- Dry and barren land. -/
  | desert
  /-- Within or near a city. -/
  | city
deriving DecidableEq, Repr

namespace Terrain

/-- All terrains in order. -/
def all : List Terrain :=
  [clear, woods, river, swamp, mountain, desert, city]

/-- The name of a terrain. -/
def name : Terrain → String
  | clear => "Clear"
  | woods => "Woods"
  | river => "River"
  | swamp => "Swamp"
  | mountain => "Mountain"
  | desert => "Desert"
  | city => "City"

/-- The terrain of a name, which has to be spelt exactly. -/
def ofName? (name : String) : Option Terrain :=
  all.find? (·.name == name)

/-- The place in the order of terrains. -/
def index (terrain : Terrain) : Nat :=
  all.idxOf terrain

/-- The names of all terrains in order, with commas between them. -/
def names : String :=
  ", ".intercalate (all.map name)

/-- What is said of a name that is no terrain. -/
def unknownMessage (name : String) : String :=
  "unknown terrain '" ++ name ++ "' (expected one of: " ++ names ++ ")"

theorem mem_all (terrain : Terrain) : terrain ∈ all := by
  cases terrain <;> decide

theorem ofName?_name (terrain : Terrain) : ofName? terrain.name = some terrain := by
  cases terrain <;> decide +kernel

theorem name_of_ofName? {name : String} {terrain : Terrain} (h : ofName? name = some terrain) :
    terrain.name = name := by
  simpa using List.find?_some h

end Terrain

end Wilderness
