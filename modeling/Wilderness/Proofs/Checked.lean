import Wilderness.Atlas

/-!
# What the checks promise

The checks of a bestiary and of an atlas are made once.  Read backwards, they say that every name
that can turn up later is known: a variant of a family is a single monster
(`Bestiary.variant_listed`), a row of a primary table leads to something that exists
(`Atlas.listed_of_primary`, `Atlas.subTable_of_primary`), and a row of a sub-table leads to a
monster (`Atlas.listed_of_subTable`).
-/

namespace Wilderness

/-! ## Hit dice -/

theorem unpack_zero : (0.0 : Float).toModel.unpack = .zero .positive := rfl

/-- Among finite numbers, what is not below zero is at least zero. -/
theorem not_lt_zero_iff {x : Float} (h : x.isFinite = true) : ¬x < 0.0 ↔ 0.0 ≤ x := by
  change ¬x.lt 0.0 = true ↔ Float.le 0.0 x = true
  simp only [Float.lt, Float.le, decide_eq_true_eq]
  change ¬x.toModel.unpack.lt (Float.toModel 0.0).unpack = true ↔
    Float.Model.UnpackedFloat.le (Float.toModel 0.0).unpack x.toModel.unpack = true
  simp only [Float.isFinite, Float.Model.isFinite] at h
  rw [unpack_zero]
  cases hx : x.toModel.unpack with
  | notANumber =>
    rw [hx] at h
    cases h
  | infinity sign =>
    rw [hx] at h
    cases h
  | zero sign => cases sign <;> decide
  | finite sign mantissa exponent pos =>
    cases sign with
    | positive => exact iff_of_true Bool.false_ne_true rfl
    | negative => exact iff_of_false (not_not_intro rfl) Bool.false_ne_true

/-! ## Bestiaries -/

namespace Bestiary

variable {bestiary : Bestiary} {name : String} {listing : Listing}

theorem get?_insert (added : Listing) :
    (bestiary.insert added).get? name =
      if added.name = name then some added else bestiary.get? name := by
  simp only [get?, insert, Std.TreeMap.getElem?_insert, Std.LawfulEqCmp.compare_eq_iff_eq]

/-- What is found in the bestiary of a list is one of the list. -/
theorem mem_of_get?_ofList {listings : List Listing}
    (h : (ofList listings).get? name = some listing) : listing ∈ listings := by
  have key : ∀ (bestiary : Bestiary), (listings.foldl insert bestiary).get? name = some listing →
      listing ∈ listings ∨ bestiary.get? name = some listing := by
    clear h
    induction listings with
    | nil => intro bestiary h; exact .inr h
    | cons added listings ih =>
      intro bestiary h
      rcases ih _ h with h | h
      · exact .inl (List.mem_cons_of_mem added h)
      · rw [get?_insert] at h
        split at h
        · cases h
          exact .inl List.mem_cons_self
        · exact .inr h
  rcases key empty h with h | h
  · exact h
  · simp [get?, empty] at h

theorem contains_iff : bestiary.contains name = true ↔
    ∃ listing, bestiary.get? name = some listing := by
  unfold contains
  rw [Std.TreeMap.contains_eq_isSome_getElem?]
  exact Option.isSome_iff_exists

theorem hitDiceDefect?_eq_none_iff {hitDice : Float} :
    hitDiceDefect? hitDice = none ↔ hitDice.isFinite = true ∧ 0.0 ≤ hitDice := by
  unfold hitDiceDefect?
  cases hfinite : hitDice.isFinite with
  | false => simp
  | true => simp [not_lt_zero_iff hfinite]

theorem variantDefect?_eq_none_iff {variant : String} :
    bestiary.variantDefect? variant = none ↔
      ∃ monster, bestiary.get? variant = some (.single monster) := by
  unfold variantDefect?
  split
  · rename_i monster hmonster
    exact ⟨fun _ => ⟨monster, hmonster⟩, fun _ => rfl⟩
  · rename_i variants hvariants
    simp [hvariants]
  · rename_i hnone
    simp [hnone]

theorem flaw?_eq_none_iff : bestiary.flaw? = none ↔
    ∀ name listing, bestiary.get? name = some listing →
      bestiary.listingDefect? listing = none := by
  simp only [flaw?, List.findSome?_eq_none_iff, Option.map_eq_none_iff, Prod.forall, toList, get?,
    Std.TreeMap.mem_toList_iff_getElem?_eq_some]

/-- Every variant of a family is listed as a single monster. -/
theorem variant_listed (hflaw : bestiary.flaw? = none) {variants : RollTable String}
    (h : bestiary.get? name = some (.family variants)) {variant : String}
    (hvariant : variant ∈ variants.values) :
    ∃ monster, bestiary.get? variant = some (.single monster) :=
  variantDefect?_eq_none_iff.1
    (List.findSome?_eq_none_iff.1 (flaw?_eq_none_iff.1 hflaw _ _ h) variant hvariant)

end Bestiary

/-! ## Entries -/

section Entries

variable {subTables : SubTables} {bestiary : Bestiary} {name : String} {entry : Entry}

theorem entryDefect?_monster :
    entryDefect? subTables bestiary (.monster name) = none ↔
      ∃ listing, bestiary.get? name = some listing := by
  rw [← Bestiary.contains_iff, entryDefect?]
  split
  · rename_i h; simp only [h]
  · rename_i h; simp only [h, reduceCtorEq]

theorem entryDefect?_subTable :
    entryDefect? subTables bestiary (.subTable name) = none ↔
      ∃ table, subTables[name]? = some table := by
  rw [← Option.isSome_iff_exists, ← Std.TreeMap.contains_eq_isSome_getElem?, entryDefect?]
  split
  · rename_i h; simp only [h]
  · rename_i h; simp only [h, reduceCtorEq]

theorem entryDefect?_eq_none_iff : entryDefect? subTables bestiary entry = none ↔
    (∃ name listing, entry = .monster name ∧ bestiary.get? name = some listing) ∨
      ∃ name table, entry = .subTable name ∧ subTables[name]? = some table := by
  cases entry with
  | monster name => simp [entryDefect?_monster]
  | subTable name => simp [entryDefect?_subTable]

theorem terminalDefect?_eq_none_iff : terminalDefect? subTables bestiary entry = none ↔
    ∃ name listing, entry = .monster name ∧ bestiary.get? name = some listing := by
  cases entry with
  | monster name => simp [terminalDefect?, Entry.isTerminal, entryDefect?_monster]
  | subTable name => simp [terminalDefect?, Entry.isTerminal]

theorem tableFlaw?_eq_none_iff {judge : Entry → Option Defect} {table : RollTable Entry} :
    tableFlaw? judge table = none ↔ ∀ entry ∈ table.values, judge entry = none := by
  rw [tableFlaw?, Option.map_eq_none_iff, List.findSome?_eq_none_iff]

theorem primaryFlaw?_eq_none_iff {primary : Terrain → Option (RollTable Entry)}
    {terrain : Terrain} : primaryFlaw? primary subTables bestiary terrain = none ↔
      ∃ table, primary terrain = some table ∧
        ∀ entry ∈ table.values, entryDefect? subTables bestiary entry = none := by
  unfold primaryFlaw?
  split
  · rename_i table htable
    simp [htable, tableFlaw?_eq_none_iff]
  · rename_i hnone
    simp [hnone]

theorem atlasFlaw?_eq_none_iff {primary : Terrain → Option (RollTable Entry)} :
    atlasFlaw? primary subTables bestiary = none ↔
      bestiary.flaw? = none ∧
        (∀ terrain, ∃ table, primary terrain = some table ∧
          ∀ entry ∈ table.values, entryDefect? subTables bestiary entry = none) ∧
        ∀ (name : String) (table : RollTable Entry), subTables[name]? = some table →
          ∀ entry ∈ table.values, terminalDefect? subTables bestiary entry = none := by
  simp only [atlasFlaw?, Option.or_eq_none_iff, List.findSome?_eq_none_iff, and_assoc,
    primaryFlaw?_eq_none_iff, tableFlaw?_eq_none_iff, Prod.forall,
    Std.TreeMap.mem_toList_iff_getElem?_eq_some, Terrain.mem_all, forall_const]

end Entries

/-! ## Atlases -/

namespace Atlas

/-- Building gives back the last table of each terrain, the sub-tables and the bestiary. -/
theorem build_eq_ok_iff {primary : List (Terrain × RollTable Entry)}
    {subTables : List (RollTable Entry)} {bestiary : Bestiary} {atlas : Atlas} :
    build primary subTables bestiary = .ok atlas ↔
      (∀ terrain, lastFor? primary terrain = some (atlas.primary terrain)) ∧
        atlas.subTables = .ofList subTables ∧ atlas.bestiary = bestiary := by
  constructor
  · intro h
    unfold build at h
    split at h
    · cases h
    · cases h
      exact ⟨fun terrain => (Option.some_get _).symm, rfl, rfl⟩
  · intro h
    obtain ⟨hprimary, hsubTables, rfl⟩ := h
    have hchecked : atlasFlaw? (lastFor? primary) (.ofList subTables) atlas.bestiary = none := by
      rw [← hsubTables, funext hprimary]
      exact atlas.flawless
    unfold build
    split
    · rename_i flaw hflaw
      rw [hchecked] at hflaw
      cases hflaw
    · cases atlas
      simp only [hprimary, Option.get_some, ← hsubTables]

variable (atlas : Atlas)

/-- The three groups of checks that an atlas has passed. -/
theorem checks :
    atlas.bestiary.flaw? = none ∧
      (∀ terrain, ∀ entry ∈ (atlas.primary terrain).values,
        entryDefect? atlas.subTables atlas.bestiary entry = none) ∧
      ∀ name table, atlas.subTable? name = some table →
        ∀ entry ∈ table.values, terminalDefect? atlas.subTables atlas.bestiary entry = none := by
  obtain ⟨hbestiary, hprimary, hsubTables⟩ := atlasFlaw?_eq_none_iff.1 atlas.flawless
  refine ⟨hbestiary, fun terrain => ?_, hsubTables⟩
  obtain ⟨table, htable, hentries⟩ := hprimary terrain
  cases htable
  exact hentries

theorem bestiary_flawless : atlas.bestiary.flaw? = none :=
  atlas.checks.1

theorem listed_of_primary {terrain : Terrain} {name : String}
    (h : .monster name ∈ (atlas.primary terrain).values) :
    ∃ listing, atlas.bestiary.get? name = some listing :=
  entryDefect?_monster.1 (atlas.checks.2.1 terrain _ h)

theorem subTable_of_primary {terrain : Terrain} {name : String}
    (h : .subTable name ∈ (atlas.primary terrain).values) :
    ∃ table, atlas.subTable? name = some table :=
  entryDefect?_subTable.1 (atlas.checks.2.1 terrain _ h)

/-- A row of a sub-table leads to a monster, and the monster is listed. -/
theorem listed_of_subTable {name : String} {table : RollTable Entry}
    (htable : atlas.subTable? name = some table) {entry : Entry} (h : entry ∈ table.values) :
    ∃ monster listing, entry = .monster monster ∧
      atlas.bestiary.get? monster = some listing :=
  terminalDefect?_eq_none_iff.1 (atlas.checks.2.2 _ _ htable entry h)

end Atlas

end Wilderness
