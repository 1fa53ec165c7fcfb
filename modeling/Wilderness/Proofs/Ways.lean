import Wilderness.Encounter
import Wilderness.Proofs.Checked
import Wilderness.Proofs.Groups
import Wilderness.Proofs.Lookup

/-!
# The way of an encounter

An encounter goes through up to three tables before the group is rolled.  At each of them there are
two ways on: the face is on the die and picks a row, or it is not and the roll is a miss
(`RollTable.trace_roll_bind`).  What a row leads to is known to exist, because the atlas was
checked.  So the throws lead from a name to a monster (`Bestiary.Identifies`) and from an entry to
one (`Atlas.Resolves`), and a miss is the only way to fail before the group is rolled
(`Atlas.trace_encounter_way`).
-/

namespace Wilderness

open Rolling

/-! ## Rolling on a table -/

def OffDie (sides face : UInt32) : Prop :=
  ¬(1 ≤ face ∧ face ≤ sides)

theorem mem_die_of_onDice {die : Die} (pos : 0 < die.sides) {handed : List (UInt32 × UInt32)}
    (h : OnDice handed) {face : UInt32} (hface : (die.sides, face) ∈ handed) :
    1 ≤ face ∧ face ≤ die.sides := by
  obtain ⟨hlow, hhigh⟩ := h _ hface
  have hsides : 0 < die.sides.toNat := pos
  refine ⟨UInt32.le_iff_toNat_le.2 hlow, UInt32.le_iff_toNat_le.2 ?_⟩
  simp only at hhigh
  omega

namespace RollTable

variable {α β ε : Type} {table : RollTable α}

/-- A throw of the table's die whose face is in a row with the value. -/
def Picks (table : RollTable α) (throw : UInt32 × UInt32) (value : α) : Prop :=
  throw.1 = table.die.sides ∧
    ∃ row ∈ table.rows, row.contains throw.2 = true ∧ row.value = value

theorem Picks.mem_values {throw : UInt32 × UInt32} {value : α} (h : table.Picks throw value) :
    value ∈ table.values := by
  obtain ⟨-, row, hrow, -, rfl⟩ := h
  exact List.mem_map_of_mem hrow

/-- A roll on a table, and what comes behind it, as one die and a step that looks at its face. -/
theorem roll_bind (table : RollTable α) (tell : OffTable → ε) (f : UInt32 × α → Rolling ε β) :
    (table.roll.mapError tell >>= f) = ask table.die.sides fun face =>
      match table.lookup face with
      | .ok value => f (face, value)
      | .error miss => fail (tell miss) := by
  apply congrArg (ask table.die.sides)
  funext face
  change ((((ofExcept (table.lookup face)).bind _).mapError tell).bind f) = _
  cases table.lookup face <;> rfl

/-- A procedure that begins on a table goes on with the value that the face picks, or the first face
is a miss and ends it. -/
theorem trace_roll_bind {tell : OffTable → ε} {f : UInt32 × α → Rolling ε β}
    {handed : List (UInt32 × UInt32)} {outcome : Except ε β}
    (h : Trace (table.roll.mapError tell >>= f) handed outcome) :
    ∃ face rest, handed = (table.die.sides, face) :: rest ∧
      ((∃ value, table.Picks (table.die.sides, face) value ∧
          Trace (f (face, value)) rest outcome) ∨
        OffDie table.die.sides face ∧ outcome = .error (tell ⟨table.name, face⟩)) := by
  rw [roll_bind, trace_ask_iff] at h
  obtain ⟨face, rest, rfl, h⟩ := h
  refine ⟨face, rest, rfl, ?_⟩
  by_cases hdie : 1 ≤ face ∧ face ≤ table.die.sides
  · obtain ⟨row, hrow, hface, hlookup⟩ := table.lookup_of_mem hdie.1 hdie.2
    rw [hlookup] at h
    exact .inl ⟨row.value, ⟨rfl, row, hrow, hface, rfl⟩, h⟩
  · rw [table.lookup_of_not_mem hdie] at h
    exact .inr ⟨hdie, (trace_fail_iff.1 h).2⟩

end RollTable

/-! ## From names and entries to monsters -/

/-- The throws that lead from a name to a single monster: none, or one for the variant of a
family. -/
inductive Bestiary.Identifies (bestiary : Bestiary) (name : String) :
    List (UInt32 × UInt32) → Monster → Prop
  | single {monster : Monster} : bestiary.get? name = some (.single monster) →
      Identifies bestiary name [] monster
  | family {variants : RollTable String} {throw : UInt32 × UInt32} {variant : String}
      {monster : Monster} :
      bestiary.get? name = some (.family variants) → variants.Picks throw variant →
      bestiary.get? variant = some (.single monster) → Identifies bestiary name [throw] monster

namespace Atlas

/-- The throws that lead from an entry to a single monster, the one on a sub-table coming first. -/
inductive Resolves (atlas : Atlas) : Entry → List (UInt32 × UInt32) → Monster → Prop
  | monster {name : String} {handed : List (UInt32 × UInt32)} {monster : Monster} :
      atlas.bestiary.Identifies name handed monster →
      Resolves atlas (.monster name) handed monster
  | subTable {sub name : String} {table : RollTable Entry} {throw : UInt32 × UInt32}
      {handed : List (UInt32 × UInt32)} {monster : Monster} :
      atlas.subTable? sub = some table → table.Picks throw (.monster name) →
      atlas.bestiary.Identifies name handed monster →
      Resolves atlas (.subTable sub) (throw :: handed) monster

/-! ## Misses -/

/-- The tables of an atlas, by name and die. -/
inductive HasTable (atlas : Atlas) : String → Die → Prop
  | primary (terrain : Terrain) :
      HasTable atlas (atlas.primary terrain).name (atlas.primary terrain).die
  | subTable {name : String} {table : RollTable Entry} : atlas.subTable? name = some table →
      HasTable atlas table.name table.die
  | family {name : String} {variants : RollTable String} :
      atlas.bestiary.get? name = some (.family variants) →
      HasTable atlas variants.name variants.die

theorem HasTable.sides_pos {atlas : Atlas} {name : String} {die : Die}
    (h : atlas.HasTable name die) : 0 < die.sides := by
  cases h with
  | primary terrain => exact (atlas.primary terrain).sides_pos
  | @subTable _ table _ => exact table.sides_pos
  | @family _ variants _ => exact variants.sides_pos

/-- Of the faces that were handed out, one is off the die of a table and makes the miss. -/
def Misses (atlas : Atlas) (handed : List (UInt32 × UInt32)) (miss : OffTable) : Prop :=
  ∃ die, atlas.HasTable miss.table die ∧ (die.sides, miss.roll) ∈ handed ∧
    OffDie die.sides miss.roll

theorem Misses.mono {atlas : Atlas} {handed more : List (UInt32 × UInt32)} {miss : OffTable}
    (h : atlas.Misses handed miss) (hsub : handed ⊆ more) : atlas.Misses more miss := by
  obtain ⟨die, htable, hface, hoff⟩ := h
  exact ⟨die, htable, hsub hface, hoff⟩

theorem not_misses_of_onDice {atlas : Atlas} {handed : List (UInt32 × UInt32)} (h : OnDice handed)
    (miss : OffTable) : ¬atlas.Misses handed miss := by
  rintro ⟨die, htable, hface, hoff⟩
  exact hoff (mem_die_of_onDice htable.sides_pos h hface)

/-- The outcome is a result as described, or one of the faces was a miss. -/
def Arrives {α : Type} (atlas : Atlas) (handed : List (UInt32 × UInt32))
    (outcome : Except EncounterError α) (post : α → Prop) : Prop :=
  (∃ result, outcome = .ok result ∧ post result) ∨
    ∃ miss, outcome = .error (.offTable miss) ∧ atlas.Misses handed miss

theorem Arrives.mono {α : Type} {atlas : Atlas} {handed more : List (UInt32 × UInt32)}
    {outcome : Except EncounterError α} {post post' : α → Prop}
    (h : atlas.Arrives handed outcome post) (hsub : handed ⊆ more)
    (hpost : ∀ result, post result → post' result) : atlas.Arrives more outcome post' := by
  rcases h with ⟨result, rfl, h⟩ | ⟨miss, rfl, h⟩
  · exact .inl ⟨result, rfl, hpost result h⟩
  · exact .inr ⟨miss, rfl, h.mono hsub⟩

theorem Arrives.of_off {α : Type} {atlas : Atlas} {name : String} {die : Die} {face : UInt32}
    {rest : List (UInt32 × UInt32)} {post : α → Prop} (htable : atlas.HasTable name die)
    (hoff : OffDie die.sides face) :
    atlas.Arrives ((die.sides, face) :: rest) (.error (.offTable ⟨name, face⟩)) post :=
  .inr ⟨⟨name, face⟩, rfl, die, htable, List.mem_cons_self, hoff⟩

/-! ## The steps of an encounter -/

variable {atlas : Atlas} {handed : List (UInt32 × UInt32)}

/-- A listed name leads to a single monster. -/
theorem trace_identify {name : String} {listing : Listing}
    (hlisted : atlas.bestiary.get? name = some listing) {outcome : Except EncounterError Monster}
    (h : Trace (atlas.identify name) handed outcome) :
    atlas.Arrives handed outcome (atlas.bestiary.Identifies name handed) := by
  rw [identify, trace_mapError_iff] at h
  obtain ⟨untold, rfl, h⟩ := h
  rw [Bestiary.identify, hlisted] at h
  cases listing with
  | single monster =>
    obtain ⟨rfl, rfl⟩ := trace_done_iff.1 h
    exact .inl ⟨monster, rfl, .single hlisted⟩
  | family variants =>
    obtain ⟨face, rest, rfl, ⟨variant, hvariant, h⟩ | ⟨hoff, rfl⟩⟩ :=
      RollTable.trace_roll_bind h
    · obtain ⟨monster, hmonster⟩ :=
        Bestiary.variant_listed atlas.bestiary_flawless hlisted hvariant.mem_values
      obtain ⟨rfl, rfl⟩ := trace_ofExcept_iff.1 h
      simp only [Bestiary.variant, hmonster]
      exact .inl ⟨monster, rfl, .family hlisted hvariant hmonster⟩
    · exact Arrives.of_off (.family hlisted) hoff

/-- An entry of a primary table leads to a single monster. -/
theorem trace_resolve {terrain : Terrain} {entry : Entry}
    (hentry : entry ∈ (atlas.primary terrain).values) {outcome : Except EncounterError Monster}
    (h : Trace (atlas.resolve entry) handed outcome) :
    atlas.Arrives handed outcome (atlas.Resolves entry handed) := by
  cases entry with
  | monster name =>
    obtain ⟨listing, hlisted⟩ := atlas.listed_of_primary hentry
    exact (trace_identify hlisted h).mono (List.Subset.refl _) fun monster => .monster
  | subTable sub =>
    obtain ⟨table, htable⟩ := atlas.subTable_of_primary hentry
    simp only [resolve, htable] at h
    obtain ⟨face, rest, rfl, ⟨entry, hpicks, h⟩ | ⟨hoff, rfl⟩⟩ := RollTable.trace_roll_bind h
    · obtain ⟨name, listing, rfl, hlisted⟩ := atlas.listed_of_subTable htable hpicks.mem_values
      exact (trace_identify hlisted h).mono (List.subset_cons_self _ _)
        fun monster => .subTable htable hpicks
    · exact Arrives.of_off (.subTable htable) hoff

/-- An encounter throws for an entry, then for the monster of the entry and then for its group,
unless one of the throws before the group is a miss. -/
theorem trace_encounter_way {terrain : Terrain} {outcome : Except EncounterError Encounter}
    (h : Trace (atlas.encounter terrain) handed outcome) :
    (∃ throw way dice entry monster group, handed = throw :: (way ++ dice) ∧
      (atlas.primary terrain).Picks throw entry ∧ atlas.Resolves entry way monster ∧
      Trace monster.rollGroup dice group ∧
      outcome = (group.mapError .fault).map fun group =>
        { terrain, monster := monster.name, quantity := group.quantity, total := group.total }) ∨
    ∃ miss, outcome = .error (.offTable miss) ∧ atlas.Misses handed miss := by
  obtain ⟨face, rest, rfl, ⟨entry, hpicks, h⟩ | ⟨hoff, rfl⟩⟩ := RollTable.trace_roll_bind h
  · have harrives : ∀ {way : List (UInt32 × UInt32)} {found : Except EncounterError Monster},
        Trace (atlas.resolve entry) way found →
          atlas.Arrives way found (atlas.Resolves entry way) :=
      trace_resolve hpicks.mem_values
    rcases trace_bind_iff.1 h with ⟨error, rfl, hresolve⟩ | ⟨monster, way, dice, rfl, hresolve, h⟩
    · rcases harrives hresolve with ⟨_, hok, -⟩ | ⟨miss, hmiss, hmisses⟩
      · cases hok
      · cases hmiss
        exact .inr ⟨miss, rfl, hmisses.mono (List.subset_cons_self _ _)⟩
    · rcases harrives hresolve with ⟨_, hok, hresolves⟩ | ⟨miss, hmiss, -⟩
      · cases hok
        obtain ⟨_, htold, rfl⟩ := trace_bind_done_iff.1 h
        obtain ⟨group, rfl, hgroup⟩ := trace_mapError_iff.1 htold
        exact .inl ⟨_, way, dice, entry, monster, group, rfl, hpicks, hresolves, hgroup, rfl⟩
      · cases hmiss
  · exact .inr ⟨_, rfl, _, .primary terrain, List.mem_cons_self, hoff⟩

end Atlas

end Wilderness
