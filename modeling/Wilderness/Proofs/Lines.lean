import Mathlib.Data.List.Forall2
import Wilderness.Command.Response
import Wilderness.Proofs.Longer
import Wilderness.Proofs.Restored

/-!
# Lines of encounters

The standard tables load (`Standard.load_eq`).  No encounter on them fails, whatever the seed, and
no name of a monster breaks a line.  So the program prints as many lines as it is asked for, each of
which tells of one encounter; the format decides what a line tells, but not of which encounter
(`Command.run_lines`).
-/

namespace Wilderness

open Rolling Text

/-! ## Unbroken texts -/

/-- The text has no line break inside. -/
def Unbroken (text : String) : Prop :=
  '\n' ∉ text.toList

instance (text : String) : Decidable (Unbroken text) :=
  inferInstanceAs (Decidable ('\n' ∉ text.toList))

theorem Unbroken.append {first second : String} (hfirst : Unbroken first)
    (hsecond : Unbroken second) : Unbroken (first ++ second) := by
  unfold Unbroken at *
  rw [String.toList_append, List.mem_append, not_or]
  exact ⟨hfirst, hsecond⟩

theorem unbroken_repr (n : Nat) : Unbroken n.repr := by
  intro hmem
  exact absurd ((numeral_repr n).isDigit _ hmem) (by decide)

namespace Json

theorem not_mem_escape (c : Char) : '\n' ∉ escape c := by
  have hdigit : ∀ value < 16, '\n' ≠ hexDigit value := by decide
  by_cases hbreak : c = '\n'
  · rw [hbreak]
    decide
  · unfold escape
    iterate 6
      split
      · decide
    split
    · next hcontrol =>
      simp [hdigit (c.toNat / 16) (by omega), hdigit (c.toNat % 16) (by omega)]
    · simpa using Ne.symm hbreak

theorem unbroken_quote (text : String) : Unbroken (quote text) := by
  unfold Unbroken
  rw [toList_quote]
  simp [not_mem_escape]

theorem not_mem_joined {texts : List String} (h : ∀ text ∈ texts, Unbroken text) :
    '\n' ∉ joined texts := by
  induction texts with
  | nil => simp [joined]
  | cons text texts ih =>
    obtain ⟨htext, htexts⟩ := List.forall_mem_cons.1 h
    cases texts with
    | nil =>
      rw [joined_singleton]
      exact htext
    | cons next texts =>
      rw [joined_cons_cons, List.mem_append, List.mem_cons]
      simp only [not_or]
      exact ⟨htext, by decide, ih htexts⟩

theorem compactMembers_eq_map (members : List (String × Json)) :
    compactMembers members =
      members.map fun member => quote member.1 ++ ":" ++ member.2.compact := by
  induction members with
  | nil => rfl
  | cons member members ih => rw [compactMembers, ih, List.map_cons]

theorem unbroken_object {members : List (String × Json)}
    (h : ∀ member ∈ members, Unbroken member.2.compact) : Unbroken (object members).compact := by
  have hjoined : '\n' ∉ joined (compactMembers members) := by
    apply not_mem_joined
    intro text htext
    rw [compactMembers_eq_map] at htext
    obtain ⟨member, hmember, rfl⟩ := List.mem_map.1 htext
    exact ((unbroken_quote member.1).append (by decide)).append (h member hmember)
  unfold Unbroken
  rw [toList_object]
  simp [hjoined]

end Json

/-! ## Loading -/

namespace Standard

theorem loadPrimaries_eq :
    loadPrimaries = .ok (Terrain.all.map fun terrain => (terrain, primary terrain)) := by
  have hload : ∀ terrain, loadPrimary terrain = .ok (primary terrain) := fun _ => eq_ok_get _
  simp only [loadPrimaries, hload]
  exact List.mapM_pure

theorem loadLeaders_eq : loadLeaders = .ok leaders := by
  simp only [loadLeaders, Monster.ofLevel_eq]
  exact List.mapM_pure

theorem loadBestiary_eq : loadBestiary = .ok bestiary := by
  have hfamilies : loadFamilies = .ok families := eq_ok_get _
  refine bind_eq_ok_iff.2 ⟨_, mapError_eq_ok_iff.2 loadCreatures_eq, ?_⟩
  refine bind_eq_ok_iff.2 ⟨_, mapError_eq_ok_iff.2 loadLeaders_eq, ?_⟩
  exact bind_eq_ok_iff.2 ⟨_, mapError_eq_ok_iff.2 hfamilies, rfl⟩

/-- **The standard tables load**: every number in them can be read, the rows of every table tile its
die, and every name leads somewhere. -/
theorem load_eq : load = .ok .standard := by
  have hsubTables : loadSubTables = .ok subTables := eq_ok_get _
  refine bind_eq_ok_iff.2 ⟨_, mapError_eq_ok_iff.2 loadPrimaries_eq, ?_⟩
  refine bind_eq_ok_iff.2 ⟨_, mapError_eq_ok_iff.2 hsubTables, ?_⟩
  refine bind_eq_ok_iff.2 ⟨_, loadBestiary_eq, ?_⟩
  exact mapError_eq_ok_iff.2 Atlas.build_standard

end Standard

namespace Command

theorem load_of_some {name : String} {terrain : Terrain}
    (h : Terrain.ofName? name = some terrain) : load name = .ok (terrain, .standard) := by
  have hread : readTerrain name = .ok terrain := by rw [readTerrain, h]
  refine bind_eq_ok_iff.2 ⟨_, hread, ?_⟩
  exact bind_eq_ok_iff.2 ⟨_, mapError_eq_ok_iff.2 Standard.load_eq, rfl⟩

theorem load_of_none {name : String} (h : Terrain.ofName? name = none) :
    load name = .error (Terrain.unknownMessage name) := by
  have hread : readTerrain name = .error (Terrain.unknownMessage name) := by rw [readTerrain, h]
  exact bind_of_error hread _

/-! ## Arguments -/

/-- The arguments ask for so many encounters of a seed, in a format and for the terrain of a
name. -/
def Asks (arguments : List String) (name : String) (seed : UInt64) (count : Nat)
    (format : Format) : Prop :=
  ∃ settings, Settings.parse arguments = .ok (name, settings) ∧ settings.showTable = false ∧
    settings.seed = some seed ∧ settings.options.repetitions = count ∧
    settings.format.getD .plain = format

def Format.name : Format → String
  | plain => "plain"
  | detail => "detail"
  | json => "json"

theorem Format.ofName?_name (format : Format) : ofName? format.name = some format := by
  cases format <;> rfl

theorem looksLikeOption_of_numeral {text : List Char} {n : Nat} (h : Numeral text n) :
    looksLikeOption text = false := by
  unfold looksLikeOption
  split
  · exact absurd rfl (h.ne_cons (by decide) _)
  · rfl

theorem unsigned?_repr (n : UInt64) : unsigned? n.toNat.repr.toList = some n := by
  have hplus := (numeral_repr n.toNat).ne_cons (by decide : '+'.isDigit = false)
  unfold unsigned?
  split
  · next rest htext => exact absurd htext (hplus rest)
  · simp only [natural?_repr]
    rw [if_pos n.toNat_lt, UInt64.ofNat_toNat]

/-- A letter whose option takes a value takes it from the next argument. -/
theorem readArguments_letter {option value : String} {letter : Char} {switch : Switch}
    {settings next : Settings} (hoption : option.toList = ['-', letter])
    (hletter : Switch.ofLetter? letter = some switch) (htakes : switch.takesValue = true)
    (hvalue : looksLikeOption value.toList = false) (hset : settings.set switch value = .ok next)
    (rest : List String) :
    readArguments (.ready settings) (option :: value :: rest) =
      readArguments (.ready next) rest := by
  have hdash : letter ≠ '-' := by
    rintro rfl
    cases hletter
  have hread : readLetters settings [letter] = .ok (.awaiting settings switch) := by
    simp [readLetters, hletter, htakes]
  have hawait : readArguments (.awaiting settings switch) (value :: rest) =
      readArguments (.ready next) rest := by
    rw [readArguments, hvalue, hset]
    rfl
  rw [← hawait]
  simp only [readArguments, hoption]
  split
  · next h => exact absurd (List.cons.inj (List.cons.inj h).2).1 hdash
  · next h => exact absurd (List.cons.inj (List.cons.inj h).2).1 hdash
  · next h =>
    cases h
    rw [hread]
    rfl
  · next h => exact absurd rfl (h _ _)

theorem asks_written (name : String) (seed count : UInt64) (format : Format) :
    Asks ["-n", count.toNat.repr, "-s", seed.toNat.repr, "-f", format.name, "--", name]
      name seed count.toNat format := by
  let first : Settings := { count := count }
  let second : Settings := { first with seed := seed }
  let third : Settings := { second with format := format }
  let last : Settings := { third with terrain := name }
  have hfirst : ({} : Settings).set .count count.toNat.repr = .ok first := by
    simp only [Settings.set, unsigned?_repr]
    rfl
  have hsecond : first.set .seed seed.toNat.repr = .ok second := by
    simp only [Settings.set, unsigned?_repr]
    rfl
  have hthird : second.set .format format.name = .ok third := by
    simp only [Settings.set, Format.ofName?_name]
    rfl
  have hformat : looksLikeOption format.name.toList = false := by
    cases format <;> rfl
  have hread : readArguments (.ready {}) ["-n", count.toNat.repr, "-s", seed.toNat.repr, "-f",
      format.name, "--", name] = .ok last := by
    rw [readArguments_letter rfl rfl rfl (looksLikeOption_of_numeral (numeral_repr _)) hfirst,
      readArguments_letter rfl rfl rfl (looksLikeOption_of_numeral (numeral_repr _)) hsecond,
      readArguments_letter rfl rfl rfl hformat hthird]
    rfl
  refine ⟨last, ?_, rfl, rfl, rfl, rfl⟩
  rw [Settings.parse, hread]
  rfl

/-! ## Lines -/

/-- A text that consists of these lines, each with its end. -/
structure Consists (text : String) (lines : List String) : Prop where
  joined : text = String.join (lines.map (· ++ "\n"))
  unbroken : ∀ line ∈ lines, Unbroken line

/-- What a line tells of an encounter. -/
def Format.Tells : Format → Encounter → String → Prop
  | plain, encounter, line => line = encounter.total.toNat.repr
  | detail, encounter, line =>
    line = encounter.total.toNat.repr ++ "\t" ++ encounter.quantity.toNat.repr ++ "\t" ++
      encounter.monster
  | json, encounter, line =>
    Json.parse? line = some (.object
      [("terrain", .string encounter.terrain.name), ("monster", .string encounter.monster),
        ("quantity", .int encounter.quantity.toNat), ("total_ehd", .int encounter.total.toNat)])

theorem Format.tells_render (format : Format) (encounter : Encounter) :
    format.Tells encounter (format.render encounter) := by
  cases format with
  | plain => exact rfl
  | detail => exact rfl
  | json =>
    apply Json.parse?_compact
    apply Json.Legible.object
    · simp
    · simp only [List.forall_mem_cons]
      exact ⟨.string _, .string _, Exchange.legible_word encounter.quantity,
        Exchange.legible_word encounter.total, by simp⟩

theorem listOutcomes_ok (format : Format) (output : String) (encounters : List Encounter) :
    listOutcomes format output (encounters.map .ok) =
      { output := output ++ String.join ((encounters.map format.render).map (· ++ "\n")) } := by
  induction encounters generalizing output with
  | nil => simp [listOutcomes]
  | cons encounter encounters ih =>
    simp only [List.map_cons, listOutcomes, ih, String.join_cons, String.append_assoc]

theorem run_of_asks {arguments : List String} {name : String} {seed : UInt64} {count : Nat}
    {format : Format} (h : Asks arguments name seed count format) (entropy : UInt64) :
    run arguments entropy =
      match Terrain.ofName? name with
      | none => failure "" (Terrain.unknownMessage name)
      | some terrain => listOutcomes format ""
          (Atlas.standard.sampling terrain count (Seeded.ofSeed seed)).drain.1.toList := by
  obtain ⟨settings, hparse, hmode, hseed, rfl, rfl⟩ := h
  rw [run, hparse]
  cases hterrain : Terrain.ofName? name with
  | none => simp only [respond, load_of_none hterrain]
  | some terrain =>
    have hoptions : settings.options.seed = some seed := by
      unfold Settings.options
      split
      · exact hseed
      · exact hseed
    have hstart : settings.options.start Atlas.standard terrain entropy =
        Atlas.standard.sampling terrain settings.options.repetitions (Seeded.ofSeed seed) := by
      unfold SamplingOptions.start
      rw [hoptions]
      rfl
    simp only [respond, load_of_some hterrain, hmode, hstart, Bool.false_eq_true, ↓reduceIte]

theorem unbroken_render (format : Format) {encounter : Encounter}
    (h : Unbroken encounter.monster) : Unbroken (format.render encounter) := by
  cases format with
  | plain => exact unbroken_repr _
  | detail =>
    have htab : Unbroken "\t" := by decide
    apply Unbroken.append
    · exact (((unbroken_repr _).append htab).append (unbroken_repr _)).append htab
    · exact h
  | json =>
    apply Json.unbroken_object
    simp only [List.forall_mem_cons]
    exact ⟨Json.unbroken_quote _, Json.unbroken_quote _, unbroken_repr _, unbroken_repr _, by simp⟩

end Command

/-! ## The standard tables -/

/-- No name of a monster in the standard tables breaks a line. -/
theorem Atlas.Meets.unbroken {terrain : Terrain} {encounter : Encounter}
    (h : Atlas.standard.Meets terrain encounter) : Unbroken encounter.monster := by
  have hall : ∀ monster ∈ Standard.creatures ++ Standard.leaders, Unbroken monster.name := by
    decide +kernel
  obtain ⟨monster, -, hname, hlisted⟩ := h.reached
  have hmem := Bestiary.mem_of_get?_ofList hlisted
  rw [hname]
  exact hall monster (by simpa using hmem)

/-- A sampling of the standard tables brings as many encounters as it is asked for, from any source
that keeps to its dice. -/
theorem Sampling.encounters_standard {ρ : Type} [FaceSource ρ] (hfaces : KeepsToDice ρ)
    (terrain : Terrain) (count : Nat) (source : ρ) :
    ∃ encounters : List Encounter,
      (Atlas.standard.sampling terrain count source).drain.1.toList = encounters.map .ok ∧
      encounters.length = count ∧
      ∀ encounter ∈ encounters, Atlas.standard.Meets terrain encounter := by
  have hbrings := (Atlas.standard.sampling terrain count source).brings_drain
  have honDice : ∀ source : ρ, OnDice ((Atlas.standard.encounter terrain).transcript source) :=
    fun source => onDice_transcript hfaces _ source
  obtain ⟨encounters, hitems, hmeets⟩ := hbrings.meets Atlas.noZeroBands_standard honDice
  have hlength := hbrings.length_eq (hbrings.isOk Atlas.noZeroBands_standard honDice)
  rw [hitems, List.length_map] at hlength
  exact ⟨encounters, hitems, hlength, hmeets⟩

namespace Command

/-- **The program prints a line for every encounter of a seed**, in any format, and nothing for a
name that is no terrain. -/
theorem run_lines (seed entropy : UInt64) :
    (∀ (name : String) (count : UInt64) (format : Format),
      ∃ arguments, Asks arguments name seed count.toNat format) ∧
    (∀ arguments name count format, Asks arguments name seed count format →
      (∀ terrain : Terrain, terrain.name ≠ name) →
        (run arguments entropy).exit = 1 ∧ (run arguments entropy).output = "") ∧
    ∀ terrain count, ∃ encounters : List Encounter,
      (Atlas.standard.sampling terrain count (Seeded.ofSeed seed)).drain.1.toList =
        encounters.map .ok ∧
      (∀ encounter ∈ encounters, encounter.terrain = terrain ∧ 1 ≤ encounter.quantity) ∧
      -- whatever the arguments, and the format among them, these are the encounters
      ∀ arguments format, Asks arguments terrain.name seed count format →
        (run arguments entropy).exit = 0 ∧
        ∃ lines, Consists (run arguments entropy).output lines ∧ lines.length = count ∧
          List.Forall₂ format.Tells encounters lines := by
  refine ⟨?asked, ?unknown, ?known⟩
  case asked => exact fun name count format => ⟨_, asks_written name seed count format⟩
  case unknown =>
    intro arguments name count format hasks hname
    have hnone : Terrain.ofName? name = none := by
      cases hterrain : Terrain.ofName? name with
      | none => rfl
      | some terrain => exact absurd (Terrain.name_of_ofName? hterrain) (hname terrain)
    rw [run_of_asks hasks, hnone]
    exact ⟨rfl, rfl⟩
  case known =>
    intro terrain count
    obtain ⟨encounters, hdrain, hlength, hmeets⟩ :=
      Sampling.encounters_standard Seeded.draw_mem terrain count (Seeded.ofSeed seed)
    refine ⟨encounters, hdrain, ?_, ?_⟩
    · intro encounter hmem
      exact ⟨(hmeets encounter hmem).terrain_eq, (hmeets encounter hmem).quantity_pos⟩
    · intro arguments format hasks
      have hrun := run_of_asks hasks entropy
      rw [Terrain.ofName?_name] at hrun
      simp only [hdrain, listOutcomes_ok] at hrun
      rw [hrun]
      refine ⟨rfl, encounters.map format.render, ⟨by simp, ?_⟩, by simpa using hlength, ?_⟩
      · intro line hline
        obtain ⟨encounter, hmem, rfl⟩ := List.mem_map.1 hline
        exact unbroken_render format (hmeets encounter hmem).unbroken
      · rw [List.forall₂_map_right_iff, List.forall₂_same]
        exact fun encounter _ => format.tells_render encounter

/-- Three encounters in a swamp as JSON, and none in a moor. -/
theorem run_lines_swamp :
    let arguments := ["Swamp", "--count=3", "-s42", "-f", "json"]
    let unknown := ["-vs", "42", "Moor"]
    Asks arguments "Swamp" 42 3 .json ∧ Asks unknown "Moor" 42 1000 .plain ∧
      (run unknown 0).exit = 1 ∧ (run unknown 0).output = "" ∧ (run arguments 0).exit = 0 ∧
      ∃ lines, Consists (run arguments 0).output lines ∧ lines.length = 3 := by
  intro arguments unknown
  have hasks : Asks arguments "Swamp" 42 3 .json :=
    ⟨{ terrain := "Swamp", count := some 3, seed := some 42, format := some .json },
      by decide +kernel, rfl, rfl, rfl, rfl⟩
  have hunknown : Asks unknown "Moor" 42 1000 .plain :=
    ⟨{ terrain := "Moor", seed := some 42, verbosity := 1 }, by decide +kernel, rfl, rfl, rfl, rfl⟩
  have hmoor : ∀ terrain : Terrain, terrain.name ≠ "Moor" := by
    intro terrain
    cases terrain <;> decide
  obtain ⟨-, hnone, hlines⟩ := run_lines 42 0
  obtain ⟨encounters, -, -, hsome⟩ := hlines .swamp 3
  obtain ⟨hexit, lines, hconsists, hlength, -⟩ := hsome arguments .json hasks
  obtain ⟨hfailed, hempty⟩ := hnone unknown "Moor" 1000 .plain hunknown hmoor
  exact ⟨hasks, hunknown, hfailed, hempty, hexit, lines, hconsists, hlength⟩

end Command

end Wilderness
