import Wilderness.Dice.Script
import Wilderness.Proofs.Strict

/-!
# Totals of groups

The creatures of a group are counted up to the greatest count, and so is what they are worth
together (`Monster.rollGroup_each`).  The worth of creatures that fall to sweeps is quartered only
after that.  As long as the whole worth is a count this gives a quarter of it; a greater worth gives
a quarter of the greatest count, however little of it would be left over
(`Monster.capped_quarter_eq_iff`, `Monster.rollGroup_swarm`).
-/

namespace Wilderness

open Rolling

namespace Throw

variable {t : Throw}

theorem Faultless.exists_run_roll (h : t.Faultless) {ρ : Type} [FaceSource ρ] (source : ρ) :
    ∃ value rest, t.roll.run source = (.ok value, rest) := by
  obtain ⟨value, rest, hroll, -⟩ := (together_roll h).exists_run source
  exact ⟨value, rest, hroll⟩

theorem exists_run_roll (h : t.scaling ≠ .bands 0) {ρ : Type} [FaceSource ρ] (source : ρ) :
    ∃ value rest, t.roll.run source = (.ok value, rest) :=
  Faultless.exists_run_roll (.inr h) source

theorem run_rollAtLeast {ρ : Type} [FaceSource ρ] {source rest : ρ} {value : Int}
    (h : t.roll.run source = (.ok value, rest)) (floor : Int) :
    (t.rollAtLeast floor).run source = (.ok (max value floor), rest) := by
  simp only [rollAtLeast, pure_eq, run_bind_done, h]
  rfl

end Throw

namespace Monster

/-- What so many creatures are worth together, quartered if they fall to sweeps and capped once. -/
def exactTotal (monster : Monster) (quantity hitDice : Nat) : Nat :=
  min (if monster.isSwept then quantity * hitDice / 4 else quantity * hitDice) greatestCount

/-- A cap before the quartering makes no difference only where there is nothing to cap. -/
theorem capped_quarter_eq_iff (worth : Nat) :
    min worth greatestCount / 4 = min (worth / 4) greatestCount ↔ worth ≤ greatestCount := by
  unfold greatestCount
  omega

theorem toNat_tally_mul (a b : UInt32) :
    (tally (a.toNat * b.toNat)).toNat = min (a.toNat * b.toNat) greatestCount := by
  rw [toNat_tally, ← Int.natCast_mul, Int.toNat_natCast]

theorem run_rollGroup_of_each {monster : Monster} {hitDice : UInt32}
    (each : monster.worth = .each hitDice) {ρ : Type} [FaceSource ρ] {source rest : ρ}
    {number : Int} (h : monster.number.roll.run source = (.ok number, rest)) :
    let quantity := tally (max number 1)
    let total := tally (quantity.toNat * hitDice.toNat)
    monster.rollGroup.run source =
      (.ok ⟨quantity, if monster.isSwept then total / 4 else total⟩, rest) := by
  simp only [rollGroup, each, pure_eq, run_bind_done, Throw.run_rollAtLeast h]
  rfl

/-- **The total of a group of creatures that are each worth the same.** -/
theorem rollGroup_each {monster : Monster} {hitDice : UInt32} (each : monster.worth = .each hitDice)
    (bands : monster.number.scaling ≠ .bands 0) {ρ : Type} [FaceSource ρ] (source : ρ) :
    ∃ number group rest,
      monster.number.roll.run source = (.ok number, rest) ∧
      monster.rollGroup.run source = (.ok group, rest) ∧
      group.quantity.toNat = min (max number 1).toNat greatestCount ∧
      let worth := group.quantity.toNat * hitDice.toNat
      group.total.toNat =
        (if monster.isSwept then min worth greatestCount / 4 else min worth greatestCount) ∧
      (group.total.toNat = monster.exactTotal group.quantity.toNat hitDice.toNat ↔
        monster.isSwept = false ∨ worth ≤ greatestCount) := by
  obtain ⟨number, rest, hnumber⟩ := Throw.exists_run_roll bands source
  refine ⟨number, _, rest, hnumber, run_rollGroup_of_each each hnumber, toNat_tally _, ?_⟩
  intro worth
  rw [exactTotal]
  cases hswept : monster.isSwept with
  | false =>
    have htotal : (tally ((tally (max number 1)).toNat * hitDice.toNat)).toNat =
        min worth greatestCount :=
      toNat_tally_mul _ _
    simpa [hswept] using ⟨htotal, htotal⟩
  | true =>
    have htotal : (tally ((tally (max number 1)).toNat * hitDice.toNat) / 4).toNat =
        min worth greatestCount / 4 := by
      rw [UInt32.toNat_div, toNat_tally_mul]
      rfl
    simpa [hswept, htotal] using capped_quarter_eq_iff worth

theorem rollGroup_each_orcs :
    let orc := creature "Orc" (dice 3 10 (.times 10)) 1.0 1
    orc.worth = .each 1 ∧ orc.number.scaling ≠ .bands 0 ∧ ∃ group rest,
      orc.rollGroup.run (Script.ofList [1, 2, 3]) = (.ok group, rest) ∧
        group.quantity = 60 ∧ group.total.toNat = orc.exactTotal 60 1 := by
  intro orc
  have each : orc.worth = .each 1 := rfl
  have bands : orc.number.scaling ≠ .bands 0 := by decide
  obtain ⟨number, group, rest, hnumber, hgroup, hquantity, -, hexact⟩ :=
    rollGroup_each each bands (Script.ofList [1, 2, 3])
  have hsum : ((dice 3 10 (.times 10)).roll.run (Script.ofList [1, 2, 3])).1 = .ok 60 := by rfl
  obtain rfl : number = 60 := Except.ok.inj ((congrArg Prod.fst hnumber).symm.trans hsum)
  have hsixty : group.quantity = 60 := UInt32.toNat_inj.1 hquantity
  rw [hsixty] at hexact
  exact ⟨each, bands, group, rest, hgroup, hsixty, hexact.2 (.inr (by decide))⟩

/-- A swarm whose whole worth is four times the greatest count: a quarter of it would just be a
count, but a quarter of the greatest count is all that is counted. -/
theorem rollGroup_swarm :
    let swarm := creature "Rat" (.constant 4294967295) 0.5 4
    ofWritten "Rat" "4294967295" 0.5 4 = .ok swarm ∧
      swarm.number.scaling ≠ .bands 0 ∧ swarm.isSwept = true ∧
      ∃ group, (swarm.rollGroup.run (Script.ofList [])).1 = .ok group ∧
        group.quantity.toNat = 4294967295 ∧ group.total.toNat = 1073741823 ∧
        swarm.exactTotal group.quantity.toNat 4 = 4294967295 ∧
        group.total.toNat ≠ swarm.exactTotal group.quantity.toNat 4 := by
  intro swarm
  have hgroup : ((creature "Rat" (.constant 4294967295) 0.5 4).rollGroup.run
      (Script.ofList [])).1 = .ok ⟨4294967295, 1073741823⟩ := by rfl
  have hexact : swarm.exactTotal 4294967295 4 = 4294967295 := by decide +kernel
  refine ⟨by rfl, by decide, by decide +kernel, _, hgroup, rfl, rfl, hexact, ?_⟩
  exact fun hsame => absurd (hsame.trans hexact) (by decide)

end Monster

end Wilderness
