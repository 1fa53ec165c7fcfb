import Wilderness.Proofs.Checked

/-!
# What an atlas is built from

The tables of an atlas are given in lists, in which a later table takes the place of an earlier one
of the same terrain or name (`LastGiven`).  An atlas is built exactly if what is left of them fits
together (`Fits`), whether or not a table is ever referred to, and then it has these tables and no
others (`Atlas.build_accepts`).
-/

namespace Wilderness

/-! ## The last one given -/

section LastGiven

variable {β κ : Type} {key : β → κ}

/-- Of the values in a list, the last one that has the key. -/
def LastGiven (key : β → κ) (given : List β) (k : κ) (value : β) : Prop :=
  ∃ before after, given = before ++ value :: after ∧ key value = k ∧ ∀ later ∈ after, key later ≠ k

theorem find?_reverse_eq_some_iff [DecidableEq κ] {given : List β} {k : κ} {value : β} :
    given.reverse.find? (key · == k) = some value ↔ LastGiven key given k value := by
  rw [List.find?_eq_some_iff_append]
  constructor
  · rintro ⟨hkey, after, before, hgiven, hlater⟩
    refine ⟨before.reverse, after.reverse, ?_, by simpa using hkey, fun later hmem => ?_⟩
    · rw [← List.reverse_reverse given, hgiven]
      simp
    · simpa using hlater later (List.mem_reverse.1 hmem)
  · rintro ⟨before, after, rfl, rfl, hlater⟩
    refine ⟨by simp, after.reverse, before.reverse, by simp, fun later hmem => ?_⟩
    simpa using hlater later (List.mem_reverse.1 hmem)

/-- Values that are put into a map one after another leave the last one of each key. -/
theorem getElem?_foldl_insert {key : β → String} (given : List β) (found : Std.TreeMap String β)
    (k : String) :
    (given.foldl (fun found value => found.insert (key value) value) found)[k]? =
      (given.reverse.find? (key · == k)).or found[k]? := by
  induction given generalizing found with
  | nil => rfl
  | cons value given ih =>
    rw [List.foldl_cons, ih, List.reverse_cons, List.find?_append, Option.or_assoc,
      Std.TreeMap.getElem?_insert]
    congr 1
    by_cases h : key value = k
    · simp [h]
    · simp [h]

/-- A map by name lists its names in ascending order. -/
theorem pairwise_toList (found : Std.TreeMap String β) :
    found.toList.Pairwise fun a b => a.1 < b.1 := by
  have hascend := Std.TreeMap.ordered_keys_toList (t := found)
  exact hascend.imp fun hlt => compareOfLessAndEq_eq_lt.1 hlt

end LastGiven

theorem SubTables.getElem?_ofList {tables : List (RollTable Entry)} {name : String}
    {table : RollTable Entry} :
    (SubTables.ofList tables)[name]? = some table ↔ LastGiven RollTable.name tables name table := by
  rw [SubTables.ofList, getElem?_foldl_insert, ← find?_reverse_eq_some_iff]
  simp

theorem lastFor?_eq_some_iff {tables : List (Terrain × RollTable Entry)} {terrain : Terrain}
    {table : RollTable Entry} :
    lastFor? tables terrain = some table ↔ LastGiven Prod.fst tables terrain (terrain, table) := by
  rw [lastFor?, Option.map_eq_some_iff, ← find?_reverse_eq_some_iff]
  constructor
  · rintro ⟨⟨found, _⟩, hfound, rfl⟩
    have hterrain : found = terrain := by simpa using List.find?_some hfound
    rw [← hterrain] at hfound ⊢
    exact hfound
  · intro hfound
    exact ⟨_, hfound, rfl⟩

/-! ## Tables that fit together -/

/-- Whatever the tables and the bestiary refer to is there. -/
structure Fits (primary : List (Terrain × RollTable Entry)) (subTables : List (RollTable Entry))
    (bestiary : Bestiary) : Prop where
  /-- Hit dice are finite numbers from zero on. -/
  hitDice : ∀ name monster, bestiary.get? name = some (.single monster) →
    monster.hitDice.isFinite = true ∧ 0.0 ≤ monster.hitDice
  /-- Variants of families are single monsters. -/
  variants : ∀ name variants, bestiary.get? name = some (.family variants) →
    ∀ variant ∈ variants.values, ∃ monster, bestiary.get? variant = some (.single monster)
  /-- Every terrain has a table. -/
  terrains : ∀ terrain, ∃ table, LastGiven Prod.fst primary terrain (terrain, table)
  /-- The table of a terrain leads to listed monsters and to sub-tables that were given. -/
  entries : ∀ terrain table, LastGiven Prod.fst primary terrain (terrain, table) →
    ∀ entry ∈ table.values,
      (∃ name listing, entry = .monster name ∧ bestiary.get? name = some listing) ∨
        ∃ name sub, entry = .subTable name ∧ LastGiven RollTable.name subTables name sub
  /-- A sub-table leads to listed monsters only. -/
  subEntries : ∀ name table, LastGiven RollTable.name subTables name table →
    ∀ entry ∈ table.values,
      ∃ name listing, entry = .monster name ∧ bestiary.get? name = some listing

variable {primary : List (Terrain × RollTable Entry)} {subTables : List (RollTable Entry)}
  {bestiary : Bestiary}

theorem Bestiary.flaw?_eq_none_iff_forall : bestiary.flaw? = none ↔
    (∀ name monster, bestiary.get? name = some (.single monster) →
      monster.hitDice.isFinite = true ∧ 0.0 ≤ monster.hitDice) ∧
    ∀ name variants, bestiary.get? name = some (.family variants) →
      ∀ variant ∈ variants.values, ∃ monster, bestiary.get? variant = some (.single monster) := by
  rw [flaw?_eq_none_iff]
  constructor
  · intro h
    refine ⟨fun name monster hlisted => hitDiceDefect?_eq_none_iff.1 (h _ _ hlisted), ?_⟩
    intro name variants hlisted variant hvariant
    exact variantDefect?_eq_none_iff.1
      (List.findSome?_eq_none_iff.1 (h _ _ hlisted) variant hvariant)
  · rintro ⟨hsingle, hfamily⟩ name listing hlisted
    cases listing with
    | single monster => exact hitDiceDefect?_eq_none_iff.2 (hsingle name monster hlisted)
    | family variants =>
      exact List.findSome?_eq_none_iff.2 fun variant hvariant =>
        variantDefect?_eq_none_iff.2 (hfamily name variants hlisted variant hvariant)

theorem atlasFlaw?_eq_none_iff_fits :
    atlasFlaw? (lastFor? primary) (.ofList subTables) bestiary = none ↔
      Fits primary subTables bestiary := by
  simp only [atlasFlaw?_eq_none_iff, Bestiary.flaw?_eq_none_iff_forall, lastFor?_eq_some_iff,
    entryDefect?_eq_none_iff, terminalDefect?_eq_none_iff, SubTables.getElem?_ofList]
  constructor
  · rintro ⟨⟨hhitDice, hvariants⟩, hprimary, hsub⟩
    refine ⟨hhitDice, hvariants, fun terrain => ?_, fun terrain table hlast => ?_, hsub⟩
    · obtain ⟨table, hlast, -⟩ := hprimary terrain
      exact ⟨table, hlast⟩
    · obtain ⟨table', hlast', hentries⟩ := hprimary terrain
      rw [← lastFor?_eq_some_iff] at hlast hlast'
      rw [hlast] at hlast'
      cases hlast'
      exact hentries
  · intro h
    refine ⟨⟨h.hitDice, h.variants⟩, fun terrain => ?_, h.subEntries⟩
    obtain ⟨table, hlast⟩ := h.terrains terrain
    exact ⟨table, hlast, h.entries terrain table hlast⟩

namespace Atlas

/-- An atlas is built if the checks find nothing, and otherwise the flaw is told. -/
theorem exists_build_iff :
    (∃ atlas, build primary subTables bestiary = .ok atlas) ↔
      atlasFlaw? (lastFor? primary) (.ofList subTables) bestiary = none := by
  constructor
  · rintro ⟨atlas, hbuilt⟩
    obtain ⟨hprimary, hsubTables, hbestiary⟩ := build_eq_ok_iff.1 hbuilt
    rw [funext hprimary, ← hsubTables, ← hbestiary]
    exact atlas.flawless
  · intro h
    unfold build
    split
    · rename_i flaw hflaw
      rw [hflaw] at h
      cases h
    · exact ⟨_, rfl⟩

/-- **What is accepted.** An atlas is built exactly if everything fits, and anything else is refused
with a flaw.  The atlas has the last table given for each terrain and each name, lists its
sub-tables in the order of their names, and has the bestiary. -/
theorem build_accepts (primary : List (Terrain × RollTable Entry))
    (subTables : List (RollTable Entry)) (bestiary : Bestiary) :
    ((∃ atlas, build primary subTables bestiary = .ok atlas) ↔ Fits primary subTables bestiary) ∧
      (¬Fits primary subTables bestiary →
        ∃ flaw, build primary subTables bestiary = .error flaw) ∧
      ∀ atlas, build primary subTables bestiary = .ok atlas →
        (∀ terrain, LastGiven Prod.fst primary terrain (terrain, atlas.primary terrain)) ∧
          (∀ name table, atlas.subTable? name = some table ↔
            LastGiven RollTable.name subTables name table) ∧
          ((atlas.subTables.toList.map Prod.snd).Pairwise fun a b => a.name < b.name) ∧
          (∀ table, table ∈ atlas.subTables.toList.map Prod.snd ↔
            LastGiven RollTable.name subTables table.name table) ∧
          atlas.bestiary = bestiary := by
  have hfits : (∃ atlas, build primary subTables bestiary = .ok atlas) ↔
      Fits primary subTables bestiary :=
    exists_build_iff.trans atlasFlaw?_eq_none_iff_fits
  refine ⟨hfits, fun hunfit => ?_, fun atlas hbuilt => ?_⟩
  · cases hbuild : build primary subTables bestiary with
    | ok atlas => exact absurd (hfits.1 ⟨atlas, hbuild⟩) hunfit
    | error flaw => exact ⟨flaw, rfl⟩
  · obtain ⟨hprimary, hsubTables, hbestiary⟩ := build_eq_ok_iff.1 hbuilt
    have hlast : ∀ name table, atlas.subTable? name = some table ↔
        LastGiven RollTable.name subTables name table := by
      intro name table
      rw [subTable?, hsubTables]
      exact SubTables.getElem?_ofList
    have hnamed : ∀ found ∈ atlas.subTables.toList, found.2.name = found.1 := by
      intro found hfound
      obtain ⟨-, -, -, hname, -⟩ :=
        (hlast _ _).1 (Std.TreeMap.mem_toList_iff_getElem?_eq_some.1 hfound)
      exact hname
    refine ⟨fun terrain => lastFor?_eq_some_iff.1 (hprimary terrain), hlast, ?_, fun table => ?_,
      hbestiary⟩
    · rw [List.pairwise_map]
      refine (pairwise_toList atlas.subTables).imp_of_mem fun {a b} ha hb hlt => ?_
      rw [hnamed a ha, hnamed b hb]
      exact hlt
    · rw [← hlast, List.mem_map]
      constructor
      · rintro ⟨found, hfound, rfl⟩
        rw [hnamed found hfound]
        exact Std.TreeMap.mem_toList_iff_getElem?_eq_some.1 hfound
      · intro htable
        exact ⟨(table.name, table), Std.TreeMap.mem_toList_iff_getElem?_eq_some.2 htable, rfl⟩

end Atlas

end Wilderness
