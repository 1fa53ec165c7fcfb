import Wilderness.Proofs.Building
import Wilderness.Proofs.Longer

/-!
# Atlases that agree on a terrain

An encounter looks up no more than the table of its terrain, the sub-tables and names that this
table leads to, and the variants of families among them (`Atlas.Consults`).  Two atlases with the
same of these have one and the same procedure for the encounter (`Atlas.AgreeOn.encounter_eq`), so
no source can tell them apart however often it is drawn from (`Atlas.AgreeOn.sameSamplings`).  An
atlas lists every name that is looked up, so new names leave all encounters as they were
(`Atlas.drain_eq_of_agreeOn`).
-/

namespace Wilderness

open Rolling

/-! ## Procedures that begin on a table -/

namespace RollTable

variable {α β ε : Type} {table : RollTable α}

theorem mem_values_of_lookup {roll : UInt32} {value : α} (h : table.lookup roll = .ok value) :
    value ∈ table.values := by
  by_cases hdie : 1 ≤ roll ∧ roll ≤ table.die.sides
  · obtain ⟨row, hrow, -, hlookup⟩ := table.lookup_of_mem hdie.1 hdie.2
    rw [hlookup] at h
    cases h
    exact List.mem_map_of_mem hrow
  · rw [table.lookup_of_not_mem hdie] at h
    cases h

/-- Of what comes behind a roll on a table, only that behind the table's own values counts. -/
theorem roll_bind_congr {tell : OffTable → ε} {f g : UInt32 × α → Rolling ε β}
    (h : ∀ face, ∀ value ∈ table.values, f (face, value) = g (face, value)) :
    (table.roll.mapError tell >>= f) = (table.roll.mapError tell >>= g) := by
  rw [roll_bind, roll_bind]
  apply congrArg (ask table.die.sides)
  funext face
  cases hlookup : table.lookup face with
  | error miss => rfl
  | ok value => exact h face value (mem_values_of_lookup hlookup)

end RollTable

/-! ## What an encounter looks up -/

theorem Bestiary.identify_congr {bestiary other : Bestiary} {name : String}
    (hname : other.get? name = bestiary.get? name)
    (hvariants : ∀ variants, bestiary.get? name = some (.family variants) →
      ∀ variant ∈ variants.values, other.get? variant = bestiary.get? variant) :
    other.identify name = bestiary.identify name := by
  rw [identify, identify, hname]
  cases hlisted : bestiary.get? name with
  | none => rfl
  | some listing =>
    cases listing with
    | single monster => rfl
    | family variants =>
      apply RollTable.roll_bind_congr
      intro face variant hmem
      simp only [Bestiary.variant, hvariants variants hlisted variant hmem]

namespace Atlas

/-- The names that an encounter of a terrain may look up in the bestiary. -/
inductive Consults (atlas : Atlas) (terrain : Terrain) : String → Prop
  | named {name : String} : atlas.Names terrain name → Consults atlas terrain name
  | variant {name variant : String} {variants : RollTable String} : atlas.Names terrain name →
      atlas.bestiary.get? name = some (.family variants) → variant ∈ variants.values →
      Consults atlas terrain variant

/-- Everything that an encounter of the terrain may look up is the same in the other atlas. -/
structure AgreeOn (terrain : Terrain) (atlas other : Atlas) : Prop where
  primary : other.primary terrain = atlas.primary terrain
  subTables : ∀ sub, .subTable sub ∈ (atlas.primary terrain).values →
    other.subTable? sub = atlas.subTable? sub
  listings : ∀ name, atlas.Consults terrain name →
    other.bestiary.get? name = atlas.bestiary.get? name

namespace AgreeOn

variable {terrain : Terrain} {atlas other : Atlas}

theorem identify_eq (h : AgreeOn terrain atlas other) {name : String}
    (hname : atlas.Names terrain name) : other.identify name = atlas.identify name := by
  have hlisted : other.bestiary.identify name = atlas.bestiary.identify name := by
    apply Bestiary.identify_congr (h.listings name (.named hname))
    intro variants hfamily variant hvariant
    exact h.listings variant (.variant hname hfamily hvariant)
  rw [identify, identify, hlisted]

theorem resolve_eq (h : AgreeOn terrain atlas other) {entry : Entry}
    (hentry : entry ∈ (atlas.primary terrain).values) :
    other.resolve entry = atlas.resolve entry := by
  cases entry with
  | monster name => exact h.identify_eq (.primary hentry)
  | subTable sub =>
    rw [resolve, resolve, h.subTables sub hentry]
    cases htable : atlas.subTable? sub with
    | none => rfl
    | some table =>
      apply RollTable.roll_bind_congr
      intro face entry hmem
      cases entry with
      | monster name => exact h.identify_eq (.subTable hentry htable hmem)
      | subTable nested => rfl

theorem encounter_eq (h : AgreeOn terrain atlas other) :
    other.encounter terrain = atlas.encounter terrain := by
  rw [encounter, encounter, h.primary]
  apply RollTable.roll_bind_congr
  intro face entry hentry
  simp only [h.resolve_eq hentry]

end AgreeOn

end Atlas

/-! ## Samplings with another atlas -/

namespace Sampling

variable {ρ : Type} {sampling last : Sampling ρ} {other : Atlas}

/-- The same sampling with the tables and monsters of another atlas. -/
def withAtlas (sampling : Sampling ρ) (other : Atlas) : Sampling ρ :=
  { sampling with atlas := other }

variable [FaceSource ρ]

theorem next?_withAtlas
    (h : other.encounter sampling.terrain = sampling.atlas.encounter sampling.terrain) :
    (sampling.withAtlas other).next? =
      sampling.next?.map fun step => (step.1, step.2.withAtlas other) := by
  rw [next?, next?]
  simp only [withAtlas, h]
  split
  · rfl
  · split <;> rfl

theorem call_withAtlas
    (h : other.encounter sampling.terrain = sampling.atlas.encounter sampling.terrain) :
    (sampling.withAtlas other).call =
      (sampling.call.1, sampling.call.2.withAtlas other) := by
  rw [call, call, next?_withAtlas h]
  cases sampling.next? <;> rfl

/-- By induction on the calls, each of which leaves the atlas and the terrain as they are. -/
theorem after_withAtlas
    (h : other.encounter sampling.terrain = sampling.atlas.encounter sampling.terrain)
    (calls : Nat) :
    (sampling.withAtlas other).after calls = (sampling.after calls).withAtlas other := by
  induction calls with
  | zero => rfl
  | succ calls ih =>
    obtain ⟨hatlas, hterrain⟩ := sampling.after_frame calls
    rw [after, after, ih, call_withAtlas (by rw [hatlas, hterrain, h])]

theorem answer_withAtlas
    (h : other.encounter sampling.terrain = sampling.atlas.encounter sampling.terrain)
    (calls : Nat) : (sampling.withAtlas other).answer calls = sampling.answer calls := by
  obtain ⟨hatlas, hterrain⟩ := sampling.after_frame calls
  rw [answer, answer, after_withAtlas h, call_withAtlas (by rw [hatlas, hterrain, h])]

theorem drawn_withAtlas
    (h : other.encounter sampling.terrain = sampling.atlas.encounter sampling.terrain)
    (calls : Nat) : (sampling.withAtlas other).drawn calls = sampling.drawn calls := by
  -- the two runs of the sampling that keeps what it is handed
  have hrecorded : ((sampling.recorded []).withAtlas other).after calls =
      ((sampling.recorded []).after calls).withAtlas other := by
    apply after_withAtlas
    exact h
  exact congrArg (fun sampling => sampling.source.handed) hrecorded

theorem Brings.withAtlas {items : List Outcome} (h : Brings sampling items last)
    (hother : other.encounter sampling.terrain = sampling.atlas.encounter sampling.terrain) :
    Brings (sampling.withAtlas other) items (last.withAtlas other) := by
  induction h with
  | ended hover => exact .ended hover
  | next hnext _ ih =>
    have hstep := next?_withAtlas hother
    rw [hnext] at hstep
    obtain ⟨_, -, -, hrest⟩ := next?_eq_some_iff.1 hnext
    refine .next hstep (ih ?_)
    rw [hrest]
    exact hother

end Sampling

namespace Atlas

/-- From whatever source, the two atlases bring the same encounters of the terrain by the same dice,
and leave the source as it is left by the other, at every call. -/
def SameSamplings (terrain : Terrain) (atlas other : Atlas) : Prop :=
  ∀ {ρ : Type} [FaceSource ρ] (repetitions : Nat) (source : ρ),
    let first := atlas.sampling terrain repetitions source
    let second := other.sampling terrain repetitions source
    second.drain.1 = first.drain.1 ∧ second.drain.2.source = first.drain.2.source ∧
      ∀ calls, second.answer calls = first.answer calls ∧
        (second.after calls).source = (first.after calls).source ∧
        second.drawn calls = first.drawn calls

variable {terrain : Terrain} {atlas other : Atlas}

theorem AgreeOn.sameSamplings (h : AgreeOn terrain atlas other) :
    SameSamplings terrain atlas other := by
  intro ρ _ repetitions source first second
  have hencounter : other.encounter first.terrain = first.atlas.encounter first.terrain :=
    h.encounter_eq
  have hdrain := (first.brings_drain.withAtlas hencounter).drain
  have hsecond : second = first.withAtlas other := rfl
  rw [hsecond, hdrain]
  refine ⟨first.drain.1.toArray_toList, rfl, fun calls => ⟨?_, ?_, ?_⟩⟩
  · exact Sampling.answer_withAtlas hencounter calls
  · rw [Sampling.after_withAtlas hencounter]
    rfl
  · exact Sampling.drawn_withAtlas hencounter calls

/-! ## Names that are looked up -/

theorem Names.listed {name : String} (h : atlas.Names terrain name) :
    ∃ listing, atlas.bestiary.get? name = some listing := by
  cases h with
  | primary hentry => exact atlas.listed_of_primary hentry
  | subTable _ htable hentry =>
    obtain ⟨_, listing, hname, hlisted⟩ := atlas.listed_of_subTable htable hentry
    cases hname
    exact ⟨listing, hlisted⟩

theorem Consults.listed {name : String} (h : atlas.Consults terrain name) :
    ∃ listing, atlas.bestiary.get? name = some listing := by
  cases h with
  | named hname => exact hname.listed
  | variant _ hfamily hvariant =>
    obtain ⟨monster, hmonster⟩ :=
      Bestiary.variant_listed atlas.bestiary_flawless hfamily hvariant
    exact ⟨_, hmonster⟩

end Atlas

theorem Bestiary.get?_foldl_insert {bestiary : Bestiary} {added : List Listing} {name : String}
    (h : ∀ listing ∈ added, listing.name ≠ name) :
    (added.foldl insert bestiary).get? name = bestiary.get? name := by
  induction added generalizing bestiary with
  | nil => rfl
  | cons listing added ih =>
    rw [List.foldl_cons, ih fun later hmem => h later (List.mem_cons_of_mem _ hmem), get?_insert,
      if_neg (h listing List.mem_cons_self)]

namespace Atlas

/-- **Only what a terrain leads to counts.** Atlases that agree on a terrain bring the same
encounters of it.  So other tables for other terrains, other sub-tables that the terrain's table
does not name, and listings under new names make no difference to it. -/
theorem drain_eq_of_agreeOn (terrain : Terrain) (atlas : Atlas) :
    (∀ other, AgreeOn terrain atlas other → SameSamplings terrain atlas other) ∧
    ∀ (other : Atlas) (added : List Listing),
      other.primary terrain = atlas.primary terrain →
      (∀ sub, .subTable sub ∈ (atlas.primary terrain).values →
        other.subTable? sub = atlas.subTable? sub) →
      other.bestiary = added.foldl Bestiary.insert atlas.bestiary →
      (∀ listing ∈ added, atlas.bestiary.contains listing.name = false) →
      SameSamplings terrain atlas other := by
  refine ⟨fun other h => h.sameSamplings, fun other added hprimary hsub hbestiary hnew => ?_⟩
  refine AgreeOn.sameSamplings ⟨hprimary, hsub, fun name hname => ?_⟩
  rw [hbestiary]
  apply Bestiary.get?_foldl_insert
  rintro listing hmem rfl
  have hcontains := Bestiary.contains_iff.2 hname.listed
  rw [hnew listing hmem] at hcontains
  cases hcontains

/-- The atlas with one more monster and with the tables of the terrains dealt out anew. -/
def revised (atlas : Atlas) (deal : Terrain → Terrain) (monster : Monster)
    (hhitDice : Bestiary.hitDiceDefect? monster.hitDice = none) : Atlas where
  primary terrain := atlas.primary (deal terrain)
  subTables := atlas.subTables
  bestiary := atlas.bestiary.insert (.single monster)
  flawless := by
    -- a name that was listed still is, and what was a single monster is still one
    have hlisted : ∀ name listing, atlas.bestiary.get? name = some listing →
        ∃ listing, (atlas.bestiary.insert (.single monster)).get? name = some listing := by
      intro name listing h
      rw [Bestiary.get?_insert]
      split
      · exact ⟨_, rfl⟩
      · exact ⟨_, h⟩
    obtain ⟨hbestiary, hprimary, hsub⟩ := atlasFlaw?_eq_none_iff.1 atlas.flawless
    refine atlasFlaw?_eq_none_iff.2 ⟨Bestiary.flaw?_eq_none_iff.2 ?_, fun terrain => ?_, ?_⟩
    · intro name listing h
      rw [Bestiary.get?_insert] at h
      split at h
      · cases h
        exact hhitDice
      · have hold := Bestiary.flaw?_eq_none_iff.1 hbestiary name listing h
        cases listing with
        | single monster => exact hold
        | family variants =>
          refine List.findSome?_eq_none_iff.2 fun variant hvariant => ?_
          obtain ⟨single, hsingle⟩ := Bestiary.variant_listed hbestiary h hvariant
          refine Bestiary.variantDefect?_eq_none_iff.2 ?_
          rw [Bestiary.get?_insert]
          split
          · exact ⟨monster, rfl⟩
          · exact ⟨single, hsingle⟩
    · obtain ⟨table, htable, hentries⟩ := hprimary (deal terrain)
      refine ⟨table, htable, fun entry hentry => ?_⟩
      rcases entryDefect?_eq_none_iff.1 (hentries entry hentry) with
        ⟨name, listing, rfl, h⟩ | ⟨name, sub, rfl, h⟩
      · exact entryDefect?_monster.2 (hlisted name listing h)
      · exact entryDefect?_subTable.2 ⟨sub, h⟩
    · intro name table htable entry hentry
      obtain ⟨name, listing, rfl, h⟩ :=
        terminalDefect?_eq_none_iff.1 (hsub name table htable entry hentry)
      obtain ⟨listing, h⟩ := hlisted name listing h
      exact terminalDefect?_eq_none_iff.2 ⟨name, listing, rfl, h⟩

/-- On open plains there are no undead, so no zombie is ever looked up there. -/
theorem not_consults_zombie : ¬standard.Consults .clear "Zombie" := by
  have hprimary : ∀ entry ∈ (Standard.primary .clear).values, entry.isTerminal = false := by
    decide
  have hsub : ∀ table ∈ Standard.subTables,
      .subTable table.name ∈ (Standard.primary .clear).values →
        .monster "Zombie" ∉ table.values := by
    decide +kernel
  have hfamily : ∀ variants ∈ Standard.families, "Zombie" ∉ variants.values := by
    decide +kernel
  intro h
  generalize hname : "Zombie" = name at h
  cases h with
  | named hnamed =>
    subst hname
    cases hnamed with
    | primary hentry => cases hprimary _ hentry
    | subTable hentry htable hmonster =>
      obtain ⟨before, after, hgiven, rfl, -⟩ := SubTables.getElem?_ofList.1 htable
      exact hsub _ (by rw [hgiven]; simp) hentry hmonster
  | variant _ hlisted hvariant =>
    subst hname
    have hmem := Bestiary.mem_of_get?_ofList hlisted
    rw [List.mem_append, List.mem_map, List.mem_map] at hmem
    rcases hmem with ⟨_, -, hsingle⟩ | ⟨variants, hmem, hvariants⟩
    · cases hsingle
    · cases hvariants
      exact hfamily _ hmem hvariant

theorem drain_eq_of_agreeOn_standard :
    let zombie := Monster.creature "Zombie" (dice 4 10) 3.0 4
    let unicorn := Monster.creature "Unicorn" (dice 1 4) 4.0 6
    let deal := fun terrain : Terrain => if terrain = .city then .swamp else terrain
    ∃ (hzombie : Bestiary.hitDiceDefect? zombie.hitDice = none)
      (hunicorn : Bestiary.hitDiceDefect? unicorn.hitDice = none),
      AgreeOn .clear standard (standard.revised deal zombie hzombie) ∧
      SameSamplings .clear standard (standard.revised deal zombie hzombie) ∧
      standard.bestiary.contains "Unicorn" = false ∧
      SameSamplings .clear standard (standard.revised deal unicorn hunicorn) := by
  intro zombie unicorn deal
  have hzombie : Bestiary.hitDiceDefect? zombie.hitDice = none := by decide +kernel
  have hunicorn : Bestiary.hitDiceDefect? unicorn.hitDice = none := by decide +kernel
  have hnew : standard.bestiary.contains "Unicorn" = false := by decide +kernel
  have hdeal : deal .clear = .clear := by decide
  have hagree : AgreeOn .clear standard (standard.revised deal zombie hzombie) := by
    refine ⟨congrArg standard.primary hdeal, fun _ _ => rfl, fun name hname => ?_⟩
    refine (Bestiary.get?_insert _).trans (if_neg ?_)
    rintro rfl
    exact not_consults_zombie hname
  obtain ⟨hsame, hchange⟩ := drain_eq_of_agreeOn .clear standard
  refine ⟨hzombie, hunicorn, hagree, hsame _ hagree, hnew, ?_⟩
  refine hchange (standard.revised deal unicorn hunicorn) [.single unicorn]
    (congrArg standard.primary hdeal) (fun _ _ => rfl) rfl fun listing hmem => ?_
  rw [List.mem_singleton.1 hmem]
  exact hnew

end Atlas

end Wilderness
