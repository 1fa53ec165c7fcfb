import Wilderness.Dice.Script
import Wilderness.Proofs.Building
import Wilderness.Proofs.Selection
import Wilderness.Proofs.Ways
import Wilderness.Standard.Tables

/-!
# From names and entries to monsters

A bestiary is checked without a roll, by going through the variants of its families, and asked for
a monster with one.  Every row of a family is reached by some face of its die and every face reaches
a row, so the two agree: the check finds nothing wrong with the families exactly if each face of
their dice leads to a monster (`Bestiary.flaw?_eq_none_iff_identify`).  The bestiary and the
sub-tables of an atlas have passed the checks.  So an entry can only fail for a name of its own
that is not known (`Atlas.Unknown`), whether or not it stands in any table, and otherwise it takes
at most two dice (`Atlas.resolve_ends`).
-/

namespace Wilderness

open Rolling

/-! ## Ends of procedures -/

namespace Rolling

variable {ε ε' α ρ : Type} [FaceSource ρ] {p : Rolling ε α} {outcome : Except ε α}
  {source rest : ρ} {handed : List (UInt32 × UInt32)}

/-- How a procedure ends that is fed from a source, what is left of the source by then, and the dice
that were asked for, each with its face. -/
structure Ends (p : Rolling ε α) (source : ρ) (outcome : Except ε α) (rest : ρ)
    (handed : List (UInt32 × UInt32)) : Prop where
  run_eq : p.run source = (outcome, rest)
  transcript_eq : p.transcript source = handed

theorem ends_ofExcept (outcome : Except ε α) (source : ρ) :
    Ends (ofExcept outcome) source outcome source [] := by
  cases outcome with
  | ok result => exact ⟨rfl, rfl⟩
  | error error => exact ⟨rfl, rfl⟩

theorem Ends.ask {sides face : UInt32} {next : UInt32 → Rolling ε α} {mid : ρ}
    (hdraw : FaceSource.draw source sides = (face, mid))
    (h : Ends (next face) mid outcome rest handed) :
    Ends (.ask sides next) source outcome rest ((sides, face) :: handed) :=
  ⟨by simp only [run, hdraw, h.run_eq], by simp only [transcript, hdraw, h.transcript_eq]⟩

theorem Ends.mapError (h : Ends p source outcome rest handed) (tell : ε → ε') :
    Ends (p.mapError tell) source (outcome.mapError tell) rest handed :=
  ⟨by rw [run_mapError, h.run_eq], by rw [transcript_mapError, h.transcript_eq]⟩

theorem Ends.outcome_eq (h : Ends p source outcome rest handed) : (p.run source).1 = outcome :=
  congrArg Prod.fst h.run_eq

end Rolling

/-! ## Rows and faces -/

namespace RollTable

variable {α β ε ρ : Type} [FaceSource ρ] {table : RollTable α} {row : Row α} {face : UInt32}

theorem lookup_of_filter (h : table.rows.filter (·.contains face) = [row]) :
    table.lookup face = .ok row.value := by
  rw [lookup_eq_elim, select?_eq_find?, ← List.head?_filter, h]
  rfl

/-- A roll leads to a value exactly if that is the value of the one row that contains it. -/
theorem lookup_eq_ok_iff {value : α} :
    table.lookup face = .ok value ↔
      ∃ row, table.rows.filter (·.contains face) = [row] ∧ row.value = value := by
  constructor
  · intro h
    by_cases hdie : 1 ≤ face ∧ face ≤ table.die.sides
    · obtain ⟨row, hrow⟩ := table.filter_contains hdie
      rw [lookup_of_filter hrow] at h
      exact ⟨row, hrow, Except.ok.inj h⟩
    · rw [table.lookup_of_not_mem hdie] at h
      cases h
  · rintro ⟨row, hrow, rfl⟩
    exact lookup_of_filter hrow

/-- Every value is reached by some face of the die. -/
theorem exists_lookup_of_mem_values {value : α} (h : value ∈ table.values) :
    ∃ face, 1 ≤ face ∧ face ≤ table.die.sides ∧ table.lookup face = .ok value := by
  obtain ⟨row, hrow, rfl⟩ := List.mem_map.1 h
  obtain ⟨hlow, hle, hhigh⟩ := table.row_mem hrow
  refine ⟨row.low, hlow, UInt32.le_trans hle hhigh, ?_⟩
  rw [lookup_eq_elim, table.select?_low hrow]
  rfl

theorem value_mem_of_filter (h : table.rows.filter (·.contains face) = [row]) :
    row.value ∈ table.values := by
  have hrow : row ∈ table.rows.filter (·.contains face) := h ▸ List.mem_singleton_self row
  exact List.mem_map_of_mem (List.mem_of_mem_filter hrow)

variable {tell : OffTable → ε} {f : UInt32 × α → Rolling ε β} {source mid rest : ρ}
  (hdraw : FaceSource.draw source table.die.sides = (face, mid))

include hdraw

/-- A procedure that begins on a table goes on with the value of the row that contains the first
face. -/
theorem ends_roll_bind {outcome : Except ε β} {handed : List (UInt32 × UInt32)}
    (hrow : table.rows.filter (·.contains face) = [row])
    (h : Ends (f (face, row.value)) mid outcome rest handed) :
    Ends (table.roll.mapError tell >>= f) source outcome rest
      ((table.die.sides, face) :: handed) := by
  rw [roll_bind]
  refine .ask hdraw ?_
  rw [lookup_of_filter hrow]
  exact h

theorem exists_row_of_onDice
    (onDice : OnDice ((table.roll.mapError tell >>= f).transcript source)) :
    ∃ row, table.rows.filter (·.contains face) = [row] ∧
      OnDice ((f (face, row.value)).transcript mid) := by
  simp only [roll_bind, transcript, hdraw] at onDice
  obtain ⟨row, hrow⟩ :=
    table.filter_contains (mem_die_of_onDice table.sides_pos onDice List.mem_cons_self)
  rw [lookup_of_filter hrow] at onDice
  exact ⟨row, hrow, fun throw hthrow => onDice throw (List.mem_cons_of_mem _ hthrow)⟩

end RollTable

/-! ## Names -/

namespace Bestiary

variable {bestiary : Bestiary} {name : String} {variants : RollTable String} {monster : Monster}

theorem variant_eq_ok_iff {variant : String} :
    bestiary.variant name variant = .ok monster ↔
      bestiary.get? variant = some (.single monster) := by
  unfold Bestiary.variant
  split
  · rename_i found hfound
    simp [hfound]
  · rename_i hfound
    simp [hfound]
  · rename_i hnone
    simp [hnone]

section Family

variable (hlisted : bestiary.get? name = some (.family variants))

include hlisted

/-- A family asks for its die once, and the face alone decides. -/
theorem ends_identify_of_family {ρ : Type} [FaceSource ρ] {source rest : ρ} {face : UInt32}
    (hdraw : FaceSource.draw source variants.die.sides = (face, rest)) :
    Ends (bestiary.identify name) source
      ((variants.lookup face).mapError .offTable >>= bestiary.variant name) rest
      [(variants.die.sides, face)] := by
  rw [identify, hlisted]
  simp only [RollTable.roll_bind]
  refine .ask hdraw ?_
  cases variants.lookup face with
  | ok variant => exact ends_ofExcept _ _
  | error miss => exact ends_ofExcept (.error _) _

theorem exists_variant_of_identify {ρ : Type} [FaceSource ρ] {source : ρ}
    (h : ((bestiary.identify name).run source).1 = .ok monster) :
    ∃ face rest row, FaceSource.draw source variants.die.sides = (face, rest) ∧
      Ends (bestiary.identify name) source (.ok monster) rest [(variants.die.sides, face)] ∧
      variants.rows.filter (·.contains face) = [row] ∧
      bestiary.get? row.value = some (.single monster) := by
  rcases hdraw : FaceSource.draw source variants.die.sides with ⟨face, rest⟩
  have hends := ends_identify_of_family hlisted hdraw
  rw [hends.outcome_eq] at h
  rw [h] at hends
  cases hlookup : variants.lookup face with
  | error miss =>
    rw [hlookup] at h
    cases h
  | ok variant =>
    rw [hlookup] at h
    obtain ⟨row, hrow, rfl⟩ := RollTable.lookup_eq_ok_iff.1 hlookup
    exact ⟨face, rest, row, rfl, hends, hrow, variant_eq_ok_iff.1 h⟩

/-- The variants are single monsters exactly if every face of the die leads to one. -/
theorem variants_listed_iff_identify :
    (∀ variant ∈ variants.values, ∃ monster, bestiary.get? variant = some (.single monster)) ↔
      ∀ face, 1 ≤ face → face ≤ variants.die.sides → ∀ {ρ : Type} [FaceSource ρ] (source : ρ),
        (FaceSource.draw source variants.die.sides).1 = face →
          ∃ monster, ((bestiary.identify name).run source).1 = .ok monster := by
  constructor
  · intro hvariants face hlow hhigh ρ _ source hface
    have hdraw : FaceSource.draw source variants.die.sides =
        (face, (FaceSource.draw source variants.die.sides).2) :=
      Prod.ext hface rfl
    obtain ⟨row, hrow⟩ := variants.filter_contains ⟨hlow, hhigh⟩
    obtain ⟨monster, hmonster⟩ := hvariants _ (RollTable.value_mem_of_filter hrow)
    refine ⟨monster, (ends_identify_of_family hlisted hdraw).outcome_eq.trans ?_⟩
    rw [RollTable.lookup_of_filter hrow]
    exact variant_eq_ok_iff.2 hmonster
  · intro hfaces variant hvariant
    obtain ⟨face, hlow, hhigh, hlookup⟩ := RollTable.exists_lookup_of_mem_values hvariant
    -- a script of the one face hands it out
    have hface : (FaceSource.draw (Script.ofList [face]) variants.die.sides).1 = face :=
      Script.wrap_of_mem hlow hhigh
    obtain ⟨monster, hmonster⟩ := hfaces face hlow hhigh _ hface
    obtain ⟨_, _, row, hdraw, -, hrow, hsingle⟩ := exists_variant_of_identify hlisted hmonster
    rw [hdraw] at hface
    cases hface
    rw [RollTable.lookup_of_filter hrow] at hlookup
    exact ⟨monster, Except.ok.inj hlookup ▸ hsingle⟩

end Family

/-- **What the check of the families promises is what the rolls on them find.** -/
theorem flaw?_eq_none_iff_identify (given : List Listing) :
    let bestiary := ofList given
    (bestiary.flaw? = none ↔
      (∀ name monster, bestiary.get? name = some (.single monster) →
        monster.hitDice.isFinite = true ∧ 0.0 ≤ monster.hitDice) ∧
      ∀ name variants, bestiary.get? name = some (.family variants) →
        ∀ face, 1 ≤ face → face ≤ variants.die.sides → ∀ {ρ : Type} [FaceSource ρ] (source : ρ),
          (FaceSource.draw source variants.die.sides).1 = face →
            ∃ monster, ((bestiary.identify name).run source).1 = .ok monster) ∧
    ∀ name variants, bestiary.get? name = some (.family variants) →
      ∀ {ρ : Type} [FaceSource ρ] (source : ρ),
        -- one die, and the monster of the row that contains its face
        (∀ monster, ((bestiary.identify name).run source).1 = .ok monster →
          ∃ face rest row, FaceSource.draw source variants.die.sides = (face, rest) ∧
            Ends (bestiary.identify name) source (.ok monster) rest [(variants.die.sides, face)] ∧
            variants.rows.filter (·.contains face) = [row] ∧
            bestiary.get? row.value = some (.single monster)) ∧
        -- from whatever source the face comes
        ∀ {ρ' : Type} [FaceSource ρ'] (other : ρ'),
          (FaceSource.draw other variants.die.sides).1 =
              (FaceSource.draw source variants.die.sides).1 →
            ((bestiary.identify name).run other).1 = ((bestiary.identify name).run source).1 := by
  intro bestiary
  refine ⟨?checked, fun name variants hlisted ρ _ source => ⟨fun monster h => ?_, ?alike⟩⟩
  case checked =>
    rw [flaw?_eq_none_iff_forall]
    refine and_congr_right fun _ => forall_congr' fun name => forall_congr' fun variants => ?_
    exact forall_congr' fun hlisted => variants_listed_iff_identify hlisted
  · exact exists_variant_of_identify hlisted h
  case alike =>
    intro ρ' _ other hface
    rcases hother : FaceSource.draw other variants.die.sides with ⟨face, _⟩
    rcases hsource : FaceSource.draw source variants.die.sides with ⟨face', _⟩
    rw [hother, hsource] at hface
    obtain rfl : face = face' := hface
    rw [(ends_identify_of_family hlisted hother).outcome_eq,
      (ends_identify_of_family hlisted hsource).outcome_eq]

end Bestiary

/-! ## Entries -/

namespace Atlas

/-- An entry whose name is not known, and the error that says so. -/
inductive Unknown (atlas : Atlas) : Entry → EncounterError → Prop
  | monster {name : String} : atlas.bestiary.get? name = none →
      Unknown atlas (.monster name) (.unknownMonster name)
  | subTable {sub : String} : atlas.subTable? sub = none →
      Unknown atlas (.subTable sub) (.unknownSubTable sub)

variable {atlas : Atlas} {ρ : Type} [FaceSource ρ] {source : ρ}

theorem Unknown.ends {entry : Entry} {error : EncounterError} (h : atlas.Unknown entry error) :
    Ends (atlas.resolve entry) source (.error error) source [] := by
  cases h with
  | monster hnone =>
    simp only [resolve, identify, Bestiary.identify, hnone]
    exact ⟨rfl, rfl⟩
  | subTable hnone =>
    simp only [resolve, hnone]
    exact ⟨rfl, rfl⟩

theorem ends_identify_of_single {name : String} {monster : Monster}
    (hlisted : atlas.bestiary.get? name = some (.single monster)) :
    Ends (atlas.identify name) source (.ok monster) source [] := by
  rw [identify, Bestiary.identify, hlisted]
  exact ⟨rfl, rfl⟩

/-- With its face on the die, a family leads to the variant of the row that contains it. -/
theorem ends_identify_of_family {name : String} {variants : RollTable String}
    (hlisted : atlas.bestiary.get? name = some (.family variants))
    (onDice : OnDice ((atlas.identify name).transcript source)) :
    ∃ face rest row monster, FaceSource.draw source variants.die.sides = (face, rest) ∧
      variants.rows.filter (·.contains face) = [row] ∧
      atlas.bestiary.get? row.value = some (.single monster) ∧
      Ends (atlas.identify name) source (.ok monster) rest [(variants.die.sides, face)] := by
  rcases hdraw : FaceSource.draw source variants.die.sides with ⟨face, rest⟩
  rw [identify, transcript_mapError, Bestiary.identify, hlisted] at onDice
  obtain ⟨row, hrow, -⟩ := RollTable.exists_row_of_onDice hdraw onDice
  obtain ⟨monster, hmonster⟩ := Bestiary.variant_listed atlas.bestiary_flawless hlisted
    (RollTable.value_mem_of_filter hrow)
  have hvariant : atlas.bestiary.variant name row.value = .ok monster :=
    Bestiary.variant_eq_ok_iff.2 hmonster
  have hends := Bestiary.ends_identify_of_family hlisted hdraw
  rw [RollTable.lookup_of_filter hrow] at hends
  change Ends (atlas.bestiary.identify name) source (atlas.bestiary.variant name row.value) rest
    [(variants.die.sides, face)] at hends
  rw [hvariant] at hends
  exact ⟨face, rest, row, monster, rfl, hrow, hmonster, hends.mapError _⟩

/-- A listed name leads to a monster by one die at most. -/
theorem ends_identify_of_listed {name : String} {listing : Listing}
    (hlisted : atlas.bestiary.get? name = some listing)
    (onDice : OnDice ((atlas.identify name).transcript source)) :
    ∃ monster rest handed, Ends (atlas.identify name) source (.ok monster) rest handed ∧
      handed.length ≤ 1 := by
  cases listing with
  | single monster =>
    exact ⟨monster, source, [], ends_identify_of_single hlisted, Nat.zero_le 1⟩
  | family variants =>
    obtain ⟨face, rest, _, monster, -, -, -, hends⟩ := ends_identify_of_family hlisted onDice
    exact ⟨monster, rest, _, hends, Nat.le_refl 1⟩

/-- A sub-table takes one die and goes on like the monster's name that its face selects. -/
theorem ends_resolve_of_subTable {sub : String} {table : RollTable Entry}
    (htable : atlas.subTable? sub = some table)
    (onDice : OnDice ((atlas.resolve (.subTable sub)).transcript source)) :
    ∃ face mid row name monster rest handed,
      FaceSource.draw source table.die.sides = (face, mid) ∧
      table.rows.filter (·.contains face) = [row] ∧ row.value = .monster name ∧
      Ends (atlas.resolve (.monster name)) mid (.ok monster) rest handed ∧ handed.length ≤ 1 ∧
      Ends (atlas.resolve (.subTable sub)) source (.ok monster) rest
        ((table.die.sides, face) :: handed) := by
  rcases hdraw : FaceSource.draw source table.die.sides with ⟨face, mid⟩
  simp only [resolve, htable] at onDice
  obtain ⟨row, hrow, hrest⟩ := RollTable.exists_row_of_onDice hdraw onDice
  obtain ⟨name, listing, hvalue, hlisted⟩ :=
    atlas.listed_of_subTable htable (RollTable.value_mem_of_filter hrow)
  rw [hvalue] at hrest
  obtain ⟨monster, rest, handed, hends, hlength⟩ := ends_identify_of_listed hlisted hrest
  refine ⟨face, mid, row, name, monster, rest, handed, rfl, hrow, hvalue, hends, hlength, ?_⟩
  simp only [resolve, htable]
  refine RollTable.ends_roll_bind hdraw hrow ?_
  rw [hvalue]
  exact hends

/-- An entry that is not unknown leads to a monster by two dice at most. -/
theorem unknown_or_ends {entry : Entry}
    (onDice : OnDice ((atlas.resolve entry).transcript source)) :
    (∃ error, atlas.Unknown entry error) ∨
      ∃ monster rest handed, Ends (atlas.resolve entry) source (.ok monster) rest handed ∧
        handed.length ≤ 2 := by
  cases entry with
  | monster name =>
    cases hlisted : atlas.bestiary.get? name with
    | none => exact .inl ⟨_, .monster hlisted⟩
    | some listing =>
      obtain ⟨monster, rest, handed, hends, hlength⟩ := ends_identify_of_listed hlisted onDice
      exact .inr ⟨monster, rest, handed, hends, Nat.le_succ_of_le hlength⟩
  | subTable sub =>
    cases htable : atlas.subTable? sub with
    | none => exact .inl ⟨_, .subTable htable⟩
    | some table =>
      obtain ⟨_, _, _, _, monster, rest, handed, -, -, -, -, hlength, hends⟩ :=
        ends_resolve_of_subTable htable onDice
      exact .inr ⟨monster, rest, _, hends, Nat.succ_le_succ hlength⟩

theorem resolve_eq_error_iff {entry : Entry}
    (onDice : OnDice ((atlas.resolve entry).transcript source)) {error : EncounterError} :
    ((atlas.resolve entry).run source).1 = .error error ↔ atlas.Unknown entry error := by
  refine ⟨fun h => ?_, fun h => h.ends.outcome_eq⟩
  rcases unknown_or_ends onDice with ⟨told, hunknown⟩ | ⟨_, _, _, hends, -⟩
  · obtain rfl : told = error := Except.error.inj (hunknown.ends.outcome_eq.symm.trans h)
    exact hunknown
  · cases hends.outcome_eq.symm.trans h

theorem length_transcript_resolve {entry : Entry}
    (onDice : OnDice ((atlas.resolve entry).transcript source)) :
    ((atlas.resolve entry).transcript source).length ≤ 2 := by
  rcases unknown_or_ends onDice with ⟨_, hunknown⟩ | ⟨_, _, _, hends, hlength⟩
  · rw [hunknown.ends.transcript_eq]
    exact Nat.zero_le 2
  · rw [hends.transcript_eq]
    exact hlength

/-- **Where an entry leads.** -/
theorem resolve_ends {ρ : Type} [FaceSource ρ] (atlas : Atlas) (entry : Entry) (source : ρ)
    (onDice : OnDice ((atlas.resolve entry).transcript source)) :
    -- only a name that is not known fails, and no die is drawn for it
    (∀ error, ((atlas.resolve entry).run source).1 = .error error ↔ atlas.Unknown entry error) ∧
    (∀ error, atlas.Unknown entry error →
      Ends (atlas.resolve entry) source (.error error) source []) ∧
    -- a single monster takes no die, a family its own
    (∀ name monster, entry = .monster name →
      atlas.bestiary.get? name = some (.single monster) →
        Ends (atlas.resolve entry) source (.ok monster) source []) ∧
    (∀ name variants, entry = .monster name →
      atlas.bestiary.get? name = some (.family variants) →
        ∃ face rest row monster, FaceSource.draw source variants.die.sides = (face, rest) ∧
          variants.rows.filter (·.contains face) = [row] ∧
          atlas.bestiary.get? row.value = some (.single monster) ∧
          Ends (atlas.resolve entry) source (.ok monster) rest [(variants.die.sides, face)]) ∧
    -- a sub-table takes its own die, and what its row takes
    (∀ sub table, entry = .subTable sub → atlas.subTable? sub = some table →
      ∃ face mid row name monster rest handed,
        FaceSource.draw source table.die.sides = (face, mid) ∧
        table.rows.filter (·.contains face) = [row] ∧ row.value = .monster name ∧
        Ends (atlas.resolve (.monster name)) mid (.ok monster) rest handed ∧ handed.length ≤ 1 ∧
        Ends (atlas.resolve entry) source (.ok monster) rest
          ((table.die.sides, face) :: handed)) ∧
    ((atlas.resolve entry).transcript source).length ≤ 2 := by
  refine ⟨fun error => resolve_eq_error_iff onDice, fun error => Unknown.ends, ?single, ?family,
    ?subTable, length_transcript_resolve onDice⟩
  case single =>
    rintro name monster rfl hlisted
    exact ends_identify_of_single hlisted
  case family =>
    rintro name variants rfl hlisted
    exact ends_identify_of_family hlisted onDice
  case subTable =>
    rintro sub table rfl htable
    exact ends_resolve_of_subTable htable onDice

/-- A sub-table whose row names a family. -/
theorem resolve_ends_giants :
    let source := Script.ofList [8, 10]
    let handed : List (UInt32 × UInt32) := [(12, 8), (10, 10)]
    (standard.resolve (.subTable "Giants")).transcript source = handed ∧ OnDice handed ∧
      standard.subTable? "Giants" = some Standard.giants ∧
      ∃ monster rest,
        Ends (standard.resolve (.subTable "Giants")) source (.ok monster) rest handed := by
  intro source handed
  have htranscript : (standard.resolve (.subTable "Giants")).transcript source = handed := by
    decide +kernel
  have honDice : OnDice handed := by decide +kernel
  have htable : standard.subTable? "Giants" = some Standard.giants := by decide +kernel
  rw [← htranscript] at honDice
  obtain ⟨-, -, -, -, hsub, -⟩ := resolve_ends standard (.subTable "Giants") source honDice
  obtain ⟨_, _, _, _, monster, rest, _, -, -, -, -, -, hends⟩ := hsub _ _ rfl htable
  rw [htranscript] at honDice
  exact ⟨htranscript, honDice, htable, monster, rest, hends.run_eq, htranscript⟩

end Atlas

end Wilderness
