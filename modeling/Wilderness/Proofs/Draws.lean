import Wilderness.Dice.Script
import Wilderness.Proofs.Encounters
import Wilderness.Proofs.Sources

/-!
# The dice of an encounter

How many dice a group takes is fixed by its statistics, for a leader together with what the
entourage comes to (`Monster.GroupDice`).  With the throws on the tables before it these are all
dice of an encounter, in that order, and nothing but their faces decides how it ends
(`Atlas.encounter_dice`).
-/

namespace Wilderness

open Rolling

/-! ## Groups -/

namespace Monster

/-- The dice of a group: those of its number, or those of an entourage and then those of as many
retainers as the entourage comes to. -/
inductive GroupDice (monster : Monster) : List (UInt32 × UInt32) → Prop
  | each {hitDice : UInt32} {dice : List (UInt32 × UInt32)} : monster.worth = .each hitDice →
      dice.map Prod.fst = List.replicate monster.number.count.toNat monster.number.sides →
      GroupDice monster dice
  | leader {level : UInt32} {entourage retainer : Throw} {first second : List (UInt32 × UInt32)}
      {value : Int} : monster.worth = .leader level entourage retainer →
      first.map Prod.fst = List.replicate entourage.count.toNat entourage.sides →
      entourage.adjust (saturate (faceSum first)) = .ok value →
      second.map Prod.fst =
        List.replicate ((tally value).toNat * retainer.count.toNat) retainer.sides →
      GroupDice monster (first ++ second)

variable {dice : List (UInt32 × UInt32)}

theorem sumRetainers_dice {retainer : Throw} {count : Nat} {total worth : UInt32}
    (h : Trace (sumRetainers retainer count total) dice (.ok worth)) :
    dice.map Prod.fst = List.replicate (count * retainer.count.toNat) retainer.sides := by
  induction count generalizing total dice with
  | zero =>
    obtain ⟨rfl, -⟩ := trace_done_iff.1 h
    simp
  | succ count ih =>
    rcases trace_bind_iff.1 h with ⟨_, herror, -⟩ | ⟨value, first, rest, rfl, hfirst, hrest⟩
    · cases herror
    · obtain ⟨hsides, -⟩ := Throw.trace_rollAtLeast_iff.1 hfirst
      rw [List.map_append, hsides, ih hrest, List.replicate_append_replicate, Nat.succ_mul,
        Nat.add_comm]

theorem groupDice_of_trace {monster : Monster} {group : Group}
    (h : Trace monster.rollGroup dice (.ok group)) : monster.GroupDice dice := by
  unfold rollGroup at h
  cases hworth : monster.worth with
  | each hitDice =>
    simp only [hworth, pure_eq] at h
    obtain ⟨_, hnumber, -⟩ := trace_bind_done_iff.1 h
    obtain ⟨hsides, -⟩ := Throw.trace_rollAtLeast_iff.1 hnumber
    exact .each hworth hsides
  | leader level entourage retainer =>
    simp only [hworth, pure_eq] at h
    rcases trace_bind_iff.1 h with ⟨_, herror, -⟩ | ⟨count, first, second, rfl, hfirst, hsecond⟩
    · cases herror
    · obtain ⟨hsides, hcount⟩ := Throw.trace_rollAtLeast_iff.1 hfirst
      obtain ⟨worth, hretainers, hworth'⟩ := trace_bind_done_iff.1 hsecond
      cases worth with
      | error error => cases hworth'
      | ok worth =>
        cases hvalue : entourage.adjust (saturate (faceSum first)) with
        | error error =>
          rw [hvalue] at hcount
          cases hcount
        | ok value =>
          rw [hvalue] at hcount
          cases hcount
          rw [rollRetainers_eq_sumRetainers] at hretainers
          have hdice := sumRetainers_dice hretainers
          rw [tally_max_zero] at hdice
          exact .leader hworth hsides hvalue hdice

end Monster

/-! ## Encounters -/

namespace Atlas

/-- The dice of an encounter in their order: one on the table of the terrain, those that lead from
its entry to a monster, and those of the group. -/
def EncounterDice (atlas : Atlas) (terrain : Terrain) (handed : List (UInt32 × UInt32))
    (encounter : Encounter) : Prop :=
  ∃ throw way dice entry monster, handed = throw :: (way ++ dice) ∧
    (atlas.primary terrain).Picks throw entry ∧ atlas.Resolves entry way monster ∧
    monster.GroupDice dice ∧ encounter.monster = monster.name

/-- **The dice of an encounter.** With faces on their dice an encounter draws these dice and no
others, and any source that answers alike on them leads to the same encounter over the same
dice. -/
theorem encounter_dice {ρ : Type} [FaceSource ρ] (atlas : Atlas)
    (bands : atlas.bestiary.NoZeroBands) (terrain : Terrain) (source : ρ)
    (onDice : OnDice ((atlas.encounter terrain).transcript source)) :
    let outcome := ((atlas.encounter terrain).run source).1
    let handed := (atlas.encounter terrain).transcript source
    (∃ encounter, outcome = .ok encounter ∧ atlas.EncounterDice terrain handed encounter) ∧
    ∀ {ρ' : Type} [FaceSource ρ'] (other : ρ'), Answers other handed →
      ((atlas.encounter terrain).run other).1 = outcome ∧
        (atlas.encounter terrain).transcript other = handed := by
  intro outcome handed
  refine ⟨?_, fun other => run_eq_of_answers _⟩
  rcases trace_encounter_way (trace_run (atlas.encounter terrain) source) with
    ⟨throw, way, dice, entry, monster, group, hhanded, hpicks, hresolves, hgroup, houtcome⟩ |
      ⟨miss, -, hmisses⟩
  · have hreaches := hresolves.reaches hpicks.mem_values
    obtain ⟨group, rfl, -⟩ := Monster.rollGroup_yields (bands _ _ hreaches.listed) _ _ hgroup
    exact ⟨_, houtcome, throw, way, dice, entry, monster, hhanded, hpicks, hresolves,
      Monster.groupDice_of_trace hgroup, rfl⟩
  · exact absurd hmisses (not_misses_of_onDice onDice miss)

theorem encounter_dice_standard :
    let source := Script.ofList [1, 6, 1, 2, 4, 1, 3]
    let other := Script.ofList [1, 6, 1, 2, 4, 1, 3, 8, 8]
    let handed : List (UInt32 × UInt32) :=
      [(8, 1), (12, 6), (6, 1), (6, 2), (4, 4), (4, 1), (4, 3)]
    (standard.encounter .clear).transcript source = handed ∧
      standard.bestiary.NoZeroBands ∧ OnDice handed ∧ Answers other handed ∧
      (∃ encounter, ((standard.encounter .clear).run source).1 = .ok encounter ∧
        standard.EncounterDice .clear handed encounter) ∧
      ((standard.encounter .clear).run other).1 = ((standard.encounter .clear).run source).1 ∧
      (standard.encounter .clear).transcript other = handed := by
  intro source other handed
  have htranscript : (standard.encounter .clear).transcript source = handed := by
    decide +kernel
  have honDice : OnDice handed := by decide +kernel
  have hanswers : Answers other handed := by decide +kernel
  rw [← htranscript] at honDice hanswers
  obtain ⟨hdice, hother⟩ := encounter_dice standard noZeroBands_standard .clear source honDice
  obtain ⟨hend, hsame⟩ := hother other hanswers
  rw [htranscript] at honDice hanswers hdice hsame
  exact ⟨htranscript, noZeroBands_standard, honDice, hanswers, hdice, hend, hsame⟩

end Atlas

end Wilderness
