import Wilderness.Dice.Seeded
import Wilderness.Proofs.Ways
import Wilderness.Standard.Tables

/-!
# Encounters of a checked atlas

The monsters that may be met in a terrain are those that its tables lead to (`Atlas.Reaches`).  The
throws of an encounter lead to one of them (`Atlas.Resolves.reaches`) and its group has someone in
it, so a miss on a table is the only way to fail (`Atlas.trace_encounter`).
-/

namespace Wilderness

open Rolling

/-! ## What a terrain leads to -/

namespace Bestiary

/-- The single monsters that a name leads to: the one of that name, or the variants of a family. -/
inductive Leads (bestiary : Bestiary) (name : String) : Monster → Prop
  | single {monster : Monster} : bestiary.get? name = some (.single monster) →
      Leads bestiary name monster
  | variant {variants : RollTable String} {variant : String} {monster : Monster} :
      bestiary.get? name = some (.family variants) → variant ∈ variants.values →
      bestiary.get? variant = some (.single monster) → Leads bestiary name monster

theorem Leads.listed {bestiary : Bestiary} {name : String} {monster : Monster}
    (h : bestiary.Leads name monster) : bestiary.get? monster.name = some (.single monster) := by
  cases h with
  | single h =>
    have hname : monster.name = name := bestiary.named h
    rw [hname, h]
  | @variant _ variant _ _ _ h =>
    have hname : monster.name = variant := bestiary.named h
    rw [hname, h]

theorem Identifies.leads {bestiary : Bestiary} {name : String} {handed : List (UInt32 × UInt32)}
    {monster : Monster} (h : bestiary.Identifies name handed monster) :
    bestiary.Leads name monster := by
  cases h with
  | single hlisted => exact .single hlisted
  | family hlisted hpicks hmonster => exact .variant hlisted hpicks.mem_values hmonster

/-- No listed monster has a throw in bands of no width. -/
def NoZeroBands (bestiary : Bestiary) : Prop :=
  ∀ name monster, bestiary.get? name = some (.single monster) → monster.NoZeroBands

theorem noZeroBands_ofList {listings : List Listing}
    (h : ∀ monster, .single monster ∈ listings → monster.NoZeroBands) :
    (ofList listings).NoZeroBands :=
  fun _ monster hlisted => h monster (mem_of_get?_ofList hlisted)

end Bestiary

/-- The creatures of the standard bestiary are read from their lines. -/
theorem Standard.loadCreatures_eq : loadCreatures = .ok creatures :=
  eq_ok_get _

namespace Atlas

/-- The names that the primary table of a terrain leads to, at once or by way of a sub-table. -/
inductive Names (atlas : Atlas) (terrain : Terrain) : String → Prop
  | primary {name : String} : .monster name ∈ (atlas.primary terrain).values →
      Names atlas terrain name
  | subTable {sub name : String} {table : RollTable Entry} :
      .subTable sub ∈ (atlas.primary terrain).values → atlas.subTable? sub = some table →
      .monster name ∈ table.values → Names atlas terrain name

/-- The monsters that may be met in a terrain. -/
def Reaches (atlas : Atlas) (terrain : Terrain) (monster : Monster) : Prop :=
  ∃ name, atlas.Names terrain name ∧ atlas.bestiary.Leads name monster

theorem Reaches.listed {atlas : Atlas} {terrain : Terrain} {monster : Monster}
    (h : atlas.Reaches terrain monster) :
    atlas.bestiary.get? monster.name = some (.single monster) := by
  obtain ⟨_, -, hleads⟩ := h
  exact hleads.listed

theorem Resolves.reaches {atlas : Atlas} {terrain : Terrain} {entry : Entry}
    {handed : List (UInt32 × UInt32)} {monster : Monster}
    (h : atlas.Resolves entry handed monster) (hentry : entry ∈ (atlas.primary terrain).values) :
    atlas.Reaches terrain monster := by
  cases h with
  | monster hidentifies => exact ⟨_, .primary hentry, hidentifies.leads⟩
  | subTable htable hpicks hidentifies =>
    exact ⟨_, .subTable hentry htable hpicks.mem_values, hidentifies.leads⟩

/-! ## Encounters -/

/-- What may be met in a terrain: some creatures of a listed kind that the terrain leads to. -/
structure Meets (atlas : Atlas) (terrain : Terrain) (encounter : Encounter) : Prop where
  terrain_eq : encounter.terrain = terrain
  quantity_pos : 1 ≤ encounter.quantity
  reached : ∃ monster, atlas.Reaches terrain monster ∧ encounter.monster = monster.name ∧
    atlas.bestiary.get? monster.name = some (.single monster)

variable {atlas : Atlas} {handed : List (UInt32 × UInt32)}

/-- An encounter is one that may be met in the terrain, unless a face was a miss. -/
theorem trace_encounter {terrain : Terrain} (hbands : atlas.bestiary.NoZeroBands)
    {outcome : Except EncounterError Encounter}
    (h : Trace (atlas.encounter terrain) handed outcome) :
    atlas.Arrives handed outcome (atlas.Meets terrain) := by
  rcases trace_encounter_way h with
    ⟨_, _, _, entry, monster, _, rfl, hpicks, hresolves, hgroup, rfl⟩ | hmiss
  · have hreaches := hresolves.reaches hpicks.mem_values
    obtain ⟨group, rfl, hquantity⟩ :=
      Monster.rollGroup_yields (hbands _ _ hreaches.listed) _ _ hgroup
    exact .inl ⟨_, rfl, rfl, hquantity, monster, hreaches, rfl, hreaches.listed⟩
  · exact .inr hmiss

/-- The standard tables and monsters fit together. -/
theorem build_standard :
    build (Terrain.all.map fun terrain => (terrain, Standard.primary terrain))
      Standard.subTables Standard.bestiary = .ok standard := by
  -- without its name the atlas is compared part by part, and none of them is worked out
  unfold standard
  rw [build_eq_ok_iff]
  exact ⟨fun terrain => by cases terrain <;> rfl, rfl, rfl⟩

theorem noZeroBands_standard : Standard.bestiary.NoZeroBands := by
  have hall : ∀ monster ∈ Standard.creatures ++ Standard.leaders, monster.NoZeroBands := by
    intro monster hmonster
    apply Monster.noZeroBands_of_expressible
    rcases List.mem_append.1 hmonster with hcreature | hleader
    · obtain ⟨_, -, hread⟩ := exists_of_mem_mapM Standard.loadCreatures_eq hcreature
      exact Monster.expressible_of_ofWritten hread
    · obtain ⟨_, -, rfl⟩ := List.mem_map.1 hleader
      exact Monster.expressible_leader _ _
  exact Bestiary.noZeroBands_ofList fun monster hmonster => hall monster (by simpa using hmonster)

/-- **No encounter runs into a name that leads nowhere.** -/
theorem encounter_of_build {ρ : Type} [FaceSource ρ] {primary : List (Terrain × RollTable Entry)}
    {subTables : List (RollTable Entry)} {listings : List Listing} {atlas : Atlas}
    (built : Atlas.build primary subTables (.ofList listings) = .ok atlas)
    (bands : (Bestiary.ofList listings).NoZeroBands)
    (terrain : Terrain) (source : ρ) :
    let outcome := ((atlas.encounter terrain).run source).1
    let handed := (atlas.encounter terrain).transcript source
    ((∃ encounter, outcome = .ok encounter ∧ atlas.Meets terrain encounter) ∨
      ∃ miss, outcome = .error (.offTable miss) ∧ atlas.Misses handed miss) ∧
    (OnDice handed → ∃ encounter, outcome = .ok encounter ∧ atlas.Meets terrain encounter) := by
  intro outcome handed
  obtain ⟨-, -, hbestiary⟩ := build_eq_ok_iff.1 built
  rw [← hbestiary] at bands
  have harrives := trace_encounter bands (trace_run (atlas.encounter terrain) source)
  refine ⟨harrives, fun honDice => ?_⟩
  rcases harrives with hok | ⟨miss, -, hmisses⟩
  · exact hok
  · exact absurd hmisses (not_misses_of_onDice honDice miss)

theorem encounter_of_build_standard :
    let atlas := Atlas.standard
    let source := Seeded.ofSeed 42
    build (Terrain.all.map fun terrain => (terrain, Standard.primary terrain))
      Standard.subTables Standard.bestiary = .ok atlas ∧
    Standard.bestiary.NoZeroBands ∧
    OnDice ((atlas.encounter .river).transcript source) ∧
    ∃ encounter, ((atlas.encounter .river).run source).1 = .ok encounter ∧
      atlas.Meets .river encounter := by
  intro atlas source
  have honDice : OnDice ((atlas.encounter .river).transcript source) :=
    onDice_transcript Seeded.draw_mem _ source
  exact ⟨build_standard, noZeroBands_standard, honDice,
    (encounter_of_build build_standard noZeroBands_standard .river source).2 honDice⟩

end Atlas

end Wilderness
