import Wilderness.Proofs.Draws
import Wilderness.Proofs.GroupTotals

/-!
# Totals of leaders

The worth of an entourage is summed up retainer by retainer.  What each of them is worth is raised
to nothing if it is negative, and it is capped; so is the sum after each of them, and the sum
together with the level of the leader.  As no step takes anything away, all this comes to a single
cap on the exact sum (`Monster.run_sumRetainers`, `Monster.rollGroup_leader`).
-/

namespace Wilderness

open Rolling

variable {ρ : Type} [FaceSource ρ]

/-! ## Throws one after another -/

namespace Throw

/-- Thrown again and again, each time with what is left of the source by the throw before, the
dice come to these values. -/
inductive Gives (t : Throw) : ρ → List Int → ρ → Prop
  | none (source : ρ) : Gives t source [] source
  | more {source mid rest : ρ} {value : Int} {values : List Int} :
      t.roll.run source = (.ok value, mid) → Gives t mid values rest →
      Gives t source (value :: values) rest

variable {t : Throw}

theorem Faultless.exists_gives (h : t.Faultless) (count : Nat) (source : ρ) :
    ∃ values rest, values.length = count ∧ t.Gives source values rest := by
  induction count generalizing source with
  | zero => exact ⟨[], source, rfl, .none source⟩
  | succ count ih =>
    obtain ⟨value, mid, hroll⟩ := h.exists_run_roll source
    obtain ⟨values, rest, hlength, hgives⟩ := ih mid
    exact ⟨value :: values, rest, congrArg (· + 1) hlength, .more hroll hgives⟩

theorem exists_gives (h : t.scaling ≠ .bands 0) (count : Nat) (source : ρ) :
    ∃ values rest, values.length = count ∧ t.Gives source values rest :=
  Faultless.exists_gives (.inr h) count source

theorem transcript_rollAtLeast (t : Throw) (floor : Int) (source : ρ) :
    (t.rollAtLeast floor).transcript source = t.roll.transcript source :=
  transcript_bind_done t.roll (max · floor) source

theorem map_fst_transcript_roll (t : Throw) (source : ρ) :
    (t.roll.transcript source).map Prod.fst = List.replicate t.count.toNat t.sides :=
  (trace_roll_iff.1 (trace_run t.roll source)).1

end Throw

namespace Monster

/-! ## Retainers -/

/-- What retainers are worth together by exact arithmetic, if their throws have these values. -/
def exactWorth (values : List Int) : Nat :=
  (values.map fun value => (max value 0).toNat).sum

theorem exactWorth_cons (value : Int) (values : List Int) :
    exactWorth (value :: values) = (max value 0).toNat + exactWorth values := by
  rw [exactWorth, List.map_cons, List.sum_cons, exactWorth]

/-- The cap on the worth of a single retainer is lost in the cap on the sum. -/
theorem tally_add_tally (total : UInt32) (value : Int) (rest : Nat) :
    tally ((tally (total.toNat + (tally (max value 0)).toNat : Nat)).toNat + rest : Nat) =
      tally (total.toNat + ((max value 0).toNat + rest) : Nat) := by
  rw [← UInt32.toNat_inj]
  simp only [toNat_tally, greatestCount]
  omega

/-- The worth of retainers, capped again and again, is the capped exact sum. -/
theorem run_sumRetainers {retainer : Throw} {source rest : ρ} {values : List Int}
    (h : retainer.Gives source values rest) (total : UInt32) :
    (sumRetainers retainer values.length total).run source =
      (.ok (tally (total.toNat + exactWorth values : Nat)), rest) := by
  induction h generalizing total with
  | none source =>
    have hnone : total.toNat + exactWorth [] = total.toNat := rfl
    rw [hnone, tally_toNat]
    rfl
  | @more source mid rest value values hroll _ ih =>
    rw [List.length_cons, sumRetainers, run_bind, Throw.run_rollAtLeast hroll 0]
    simp only [ih, exactWorth_cons, ← tally_add_tally]
    rfl

/-- An entourage asks for the dice of all its retainers, whatever they show. -/
theorem transcript_sumRetainers {retainer : Throw} {source rest : ρ} {values : List Int}
    (h : retainer.Gives source values rest) (total : UInt32) :
    ((sumRetainers retainer values.length total).transcript source).map Prod.fst =
      List.replicate (values.length * retainer.count.toNat) retainer.sides := by
  have htrace := trace_run (sumRetainers retainer values.length total) source
  rw [run_sumRetainers h total] at htrace
  exact sumRetainers_dice htrace

/-! ## Leaders -/

section Leader

variable {monster : Monster} {level : UInt32} {entourage retainer : Throw}
  (leads : monster.worth = .leader level entourage retainer)

include leads in
theorem rollGroup_of_leader :
    monster.rollGroup = entourage.rollAtLeast 0 >>= fun number =>
      sumRetainers retainer (tally number).toNat 0 >>= fun worth =>
        .done ⟨tally ((tally number).toNat + 1), tally (level.toNat + worth.toNat)⟩ := by
  simp only [rollGroup, leads, rollRetainers_eq_sumRetainers, pure_eq]

variable {source mid rest : ρ} {number : Int} {values : List Int}
  (hnumber : entourage.roll.run source = (.ok number, mid))
  (hlength : values.length = (tally (max number 0)).toNat)
  (hgives : retainer.Gives mid values rest)

include leads hnumber hlength hgives

theorem run_rollGroup_of_leader :
    monster.rollGroup.run source =
      (.ok ⟨tally (values.length + 1), tally (level.toNat + (tally (exactWorth values)).toNat)⟩,
        rest) := by
  have hretainers := run_sumRetainers hgives 0
  rw [UInt32.toNat_zero, Nat.zero_add] at hretainers
  rw [rollGroup_of_leader leads, run_bind, Throw.run_rollAtLeast hnumber 0]
  simp only [← hlength, run_bind_done, hretainers]
  rfl

/-- The dice of the entourage and then those of its retainers. -/
theorem transcript_rollGroup_eq_append :
    monster.rollGroup.transcript source =
      entourage.roll.transcript source ++
        (sumRetainers retainer values.length 0).transcript mid := by
  rw [rollGroup_of_leader leads, transcript_bind, Throw.run_rollAtLeast hnumber 0,
    Throw.transcript_rollAtLeast]
  simp only [← hlength, transcript_bind, run_sumRetainers hgives 0, transcript, List.append_nil]

theorem transcript_rollGroup_of_leader :
    (monster.rollGroup.transcript source).map Prod.fst =
      List.replicate entourage.count.toNat entourage.sides ++
        List.replicate (values.length * retainer.count.toNat) retainer.sides := by
  rw [transcript_rollGroup_eq_append leads hnumber hlength hgives, List.map_append,
    Throw.map_fst_transcript_roll, transcript_sumRetainers hgives 0]

end Leader

/-- **The group of a leader.** -/
theorem rollGroup_leader {monster : Monster} {level : UInt32} {entourage retainer : Throw}
    (leads : monster.worth = .leader level entourage retainer)
    (entourageBands : entourage.scaling ≠ .bands 0) (retainerBands : retainer.scaling ≠ .bands 0)
    (source : ρ) :
    ∃ number mid values rest group,
      entourage.roll.run source = (.ok number, mid) ∧
      values.length = min (max number 0).toNat greatestCount ∧
      retainer.Gives mid values rest ∧
      monster.rollGroup.run source = (.ok group, rest) ∧
      group.quantity.toNat = min (1 + values.length) greatestCount ∧
      group.total.toNat = min (level.toNat + exactWorth values) greatestCount ∧
      (monster.rollGroup.transcript source).map Prod.fst =
        List.replicate entourage.count.toNat entourage.sides ++
          List.replicate (values.length * retainer.count.toNat) retainer.sides ∧
      ∀ (number : Throw) (hitDice : Float),
        ({ monster with number, hitDice } : Monster).rollGroup = monster.rollGroup := by
  obtain ⟨number, mid, hnumber⟩ := Throw.exists_run_roll entourageBands source
  obtain ⟨values, rest, hlength, hgives⟩ :=
    Throw.exists_gives retainerBands (tally (max number 0)).toNat mid
  refine ⟨number, mid, values, rest, _, hnumber, hlength.trans (toNat_tally _), hgives,
    run_rollGroup_of_leader leads hnumber hlength hgives, ?quantity, ?total,
    transcript_rollGroup_of_leader leads hnumber hlength hgives, ?ignores⟩
  case quantity =>
    rw [toNat_tally]
    omega
  case total =>
    simp only [toNat_tally, greatestCount]
    omega
  case ignores =>
    intro number hitDice
    have leads' : ({ monster with number, hitDice } : Monster).worth =
        .leader level entourage retainer := leads
    rw [rollGroup_of_leader leads', rollGroup_of_leader leads]

/-- Three retainers of whom one is thrown below nothing. -/
theorem rollGroup_leader_chief :
    let retainer := dice 1 4 (.times 1) (-2)
    let chief : Monster := ⟨"Chief", .constant 1, 9.0, .leader 9 (dice 1 6) retainer⟩
    let source := Script.ofList [3, 1, 4, 2]
    chief.worth = .leader 9 (dice 1 6) retainer ∧ (dice 1 6).scaling ≠ .bands 0 ∧
      retainer.scaling ≠ .bands 0 ∧
      ∃ mid values rest, retainer.Gives mid values rest ∧ values.length = 3 ∧
        exactWorth values = 2 ∧ chief.rollGroup.run source = (.ok ⟨4, 11⟩, rest) ∧
        (chief.rollGroup.transcript source).map Prod.fst = [6, 4, 4, 4] := by
  intro retainer chief source
  have leads : chief.worth = .leader 9 (dice 1 6) retainer := rfl
  have entourageBands : (dice 1 6).scaling ≠ .bands 0 := by simp [dice]
  have retainerBands : retainer.scaling ≠ .bands 0 := by simp [retainer, dice]
  obtain ⟨_, mid, values, rest, group, -, -, hgives, hrun, hquantity, htotal, hdice, -⟩ :=
    rollGroup_leader leads entourageBands retainerBands source
  have hgroup : ((⟨"Chief", .constant 1, 9.0, .leader 9 (dice 1 6)
      (dice 1 4 (.times 1) (-2))⟩ : Monster).rollGroup.run (Script.ofList [3, 1, 4, 2])).1 =
      .ok ⟨4, 11⟩ := by rfl
  obtain rfl := Except.ok.inj ((congrArg Prod.fst hrun).symm.trans hgroup)
  have hfour : (4 : UInt32).toNat = 4 := rfl
  have hnine : (9 : UInt32).toNat = 9 := rfl
  have heleven : (11 : UInt32).toNat = 11 := rfl
  simp only [hfour, hnine, heleven, greatestCount] at hquantity htotal
  have hlength : values.length = 3 := by omega
  refine ⟨leads, entourageBands, retainerBands, mid, values, rest, hgives, hlength, ?_, hrun, ?_⟩
  · omega
  · rw [hdice, hlength]
    rfl

end Monster

end Wilderness
