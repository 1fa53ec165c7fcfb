import Wilderness.Bestiary

/-!
# Atlases

An atlas has a table of encounters for every terrain, sub-tables by name, and the bestiary that
their rows refer to.  `Atlas.build` checks all of it once, so that no encounter can run into a
name that leads nowhere.
-/

namespace Wilderness

/-- Sub-tables by name. -/
abbrev SubTables := Std.TreeMap String (RollTable Entry)

/-- The sub-tables of a list, the last one of a name winning. -/
def SubTables.ofList (tables : List (RollTable Entry)) : SubTables :=
  tables.foldl (fun found table => found.insert table.name table) ∅

/-- The last table given for a terrain. -/
def lastFor? (tables : List (Terrain × RollTable Entry)) (terrain : Terrain) :
    Option (RollTable Entry) :=
  (tables.reverse.find? (·.1 == terrain)).map Prod.snd

/-! ## Checks -/

/-- What is wrong with an entry of a primary table, which has to lead to something. -/
def entryDefect? (subTables : SubTables) (bestiary : Bestiary) : Entry → Option Defect
  | .monster name => if bestiary.contains name then none else some (.unlistedMonster name)
  | .subTable name => if subTables.contains name then none else some (.missingSubTable name)

/-- What is wrong with an entry of a sub-table, which has to lead to a monster. -/
def terminalDefect? (subTables : SubTables) (bestiary : Bestiary) (entry : Entry) : Option Defect :=
  if entry.isTerminal then entryDefect? subTables bestiary entry else some (.nestedSubTable entry)

/-- The first flaw of a table whose entries are judged one by one. -/
def tableFlaw? (judge : Entry → Option Defect) (table : RollTable Entry) : Option Flaw :=
  (table.values.findSome? judge).map fun defect => ⟨table.name, defect⟩

/-- The first flaw of the table of a terrain. -/
def primaryFlaw? (primary : Terrain → Option (RollTable Entry)) (subTables : SubTables)
    (bestiary : Bestiary) (terrain : Terrain) : Option Flaw :=
  match primary terrain with
  | some table => tableFlaw? (entryDefect? subTables bestiary) table
  | none => some ⟨terrain.name, .noPrimaryTable⟩

/-- The first flaw of an atlas: in its bestiary, then in its primary tables in the order of the
terrains, then in its sub-tables in the order of their names. -/
def atlasFlaw? (primary : Terrain → Option (RollTable Entry)) (subTables : SubTables)
    (bestiary : Bestiary) : Option Flaw :=
  bestiary.flaw?
    |>.or (Terrain.all.findSome? (primaryFlaw? primary subTables bestiary))
    |>.or (subTables.toList.findSome? fun (_, table) =>
      tableFlaw? (terminalDefect? subTables bestiary) table)

/-- Tables of encounters that fit together. -/
structure Atlas where
  primary : Terrain → RollTable Entry
  subTables : SubTables
  bestiary : Bestiary
  flawless : atlasFlaw? (fun terrain => some (primary terrain)) subTables bestiary = none

namespace Atlas

/-- A terrain without a table makes an atlas flawed. -/
theorem isSome_primary {primary : Terrain → Option (RollTable Entry)} {subTables : SubTables}
    {bestiary : Bestiary} (h : atlasFlaw? primary subTables bestiary = none) (terrain : Terrain) :
    (primary terrain).isSome := by
  simp only [atlasFlaw?, Option.or_eq_none_iff, List.findSome?_eq_none_iff] at h
  have := h.1.2 terrain terrain.mem_all
  unfold primaryFlaw? at this
  split at this
  · next found => simp [found]
  · simp at this

/-- The atlas of tables that are given for terrains, of sub-tables and of a bestiary.  Of several
tables for a terrain, or sub-tables of a name, the last one counts. -/
def build (primary : List (Terrain × RollTable Entry)) (subTables : List (RollTable Entry))
    (bestiary : Bestiary) : Except Flaw Atlas :=
  match checked : atlasFlaw? (lastFor? primary) (.ofList subTables) bestiary with
  | some flaw => .error flaw
  | none =>
    .ok {
      primary := fun terrain => (lastFor? primary terrain).get (isSome_primary checked terrain)
      subTables := .ofList subTables
      bestiary
      flawless := by simpa using checked }

/-- The sub-table of a name. -/
def subTable? (atlas : Atlas) (name : String) : Option (RollTable Entry) :=
  atlas.subTables[name]?

/-- The entry that a roll leads to in the table of a terrain. -/
def lookup (atlas : Atlas) (terrain : Terrain) (roll : UInt32) : Except OffTable Entry :=
  (atlas.primary terrain).lookup roll

end Atlas

end Wilderness
