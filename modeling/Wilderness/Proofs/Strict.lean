import Wilderness.Proofs.Groups
import Wilderness.Proofs.WrittenThrows

/-!
# Strict arithmetic

The arithmetic of throws once more, step by step as it is done on words of 64 and 32 bits: additions
and products that are capped, and the three steps of a scaling in bands that are not capped and have
to stay in range by themselves (`Scaling.applyStrict`).  A throw that does not divide by zero goes
through them without a trap, whatever faces it is handed, and has the same value as by exact
arithmetic (`Throw.together_roll`); so has the group of a monster (`Monster.together_rollGroup`).
-/

namespace Wilderness

open Rolling

/-- Why arithmetic on words stops. -/
inductive Trap where
  | overflow
  | divisionByZero
deriving DecidableEq, Repr

/-- The result of a step that is not capped. -/
def narrow (value : Int) : Except Trap Int :=
  if leastTotal ≤ value ∧ value ≤ greatestTotal then .ok value else .error .overflow

/-- A quotient, rounded so that the remainder is not negative. -/
def divide (value : Int) (width : UInt32) : Except Trap Int :=
  if width = 0 then .error .divisionByZero else narrow (value / width.toNat)

def Scaling.applyStrict : Scaling → Int → Except Trap Int
  | .times factor, sum => .ok (saturate (sum * factor.toNat))
  | .bands width, sum => do
    let below ← narrow (sum - 1)
    let band ← divide below width
    narrow (band + 1)

namespace Throw

def adjustStrict (t : Throw) (sum : Int) : Except Trap Int :=
  if t.isConstant then .ok t.modifier.toInt
  else do
    let scaled ← t.scaling.applyStrict sum
    return saturate (scaled + t.modifier.toInt)

def leastStrict (t : Throw) : Except Trap Int :=
  t.adjustStrict t.count.toNat

def greatestStrict (t : Throw) : Except Trap Int :=
  t.adjustStrict (saturate (t.count.toNat * t.sides.toNat))

/-- The sum of the next faces, capped after each of them. -/
def sumStrict (sides : UInt32) : (count : Nat) → (sum : Int) → Rolling Trap Int
  | 0, sum => .done sum
  | count + 1, sum => .ask sides fun face => sumStrict sides count (saturate (sum + face.toNat))

def rollStrict (t : Throw) : Rolling Trap Int := do
  let sum ← sumStrict t.sides t.count.toNat 0
  .ofExcept (t.adjustStrict sum)

def rollAtLeastStrict (t : Throw) (floor : Int) : Rolling Trap Int := do
  return max (← t.rollStrict) floor

end Throw

namespace Monster

/-- The worth of so many retainers, each thrown for and capped after each of them. -/
def sumRetainersStrict (retainer : Throw) : (count : Nat) → (total : UInt32) → Rolling Trap UInt32
  | 0, total => .done total
  | count + 1, total => do
    let worth ← retainer.rollAtLeastStrict 0
    sumRetainersStrict retainer count (tally (total.toNat + (tally worth).toNat))

def rollGroupStrict (monster : Monster) : Rolling Trap Group :=
  match monster.worth with
  | .each hitDice => do
    let quantity := tally (← monster.number.rollAtLeastStrict 1)
    let total := tally (quantity.toNat * hitDice.toNat)
    return { quantity, total := if monster.isSwept then total / 4 else total }
  | .leader level entourage retainer => do
    let retainers := tally (← entourage.rollAtLeastStrict 0)
    let worth ← sumRetainersStrict retainer retainers.toNat 0
    return { quantity := tally (retainers.toNat + 1), total := tally (level.toNat + worth.toNat) }

end Monster

/-! ## Procedures side by side -/

namespace Rolling

variable {ε ε' α β γ δ : Type}

/-- The two procedures ask for the same dice, never fail, and end with related results. -/
inductive Together (R : α → β → Prop) : Rolling ε α → Rolling ε' β → Prop
  | done {a : α} {b : β} : R a b → Together R (.done a) (.done b)
  | ask (sides : UInt32) {next : UInt32 → Rolling ε α} {next' : UInt32 → Rolling ε' β} :
      (∀ face, Together R (next face) (next' face)) →
        Together R (.ask sides next) (.ask sides next')

theorem Together.bind {R : α → β → Prop} {S : γ → δ → Prop} {p : Rolling ε α} {q : Rolling ε' β}
    {f : α → Rolling ε γ} {g : β → Rolling ε' δ} (h : Together R p q)
    (hfg : ∀ a b, R a b → Together S (f a) (g b)) : Together S (p >>= f) (q >>= g) := by
  induction h with
  | done hab => exact hfg _ _ hab
  | ask sides _ ih => exact .ask sides ih

theorem Together.run {R : α → β → Prop} {p : Rolling ε α} {q : Rolling ε' β} (h : Together R p q)
    {ρ : Type} [FaceSource ρ] (source : ρ) :
    ∃ a b rest, p.run source = (.ok a, rest) ∧ q.run source = (.ok b, rest) ∧ R a b := by
  induction h generalizing source with
  | done hab => exact ⟨_, _, source, rfl, rfl, hab⟩
  | ask sides _ ih => exact ih _ _

/-- Procedures that end with the same result have the same runs. -/
theorem Together.exists_run {p : Rolling ε α} {q : Rolling ε' α} (h : Together Eq p q)
    {ρ : Type} [FaceSource ρ] (source : ρ) :
    ∃ result rest, p.run source = (.ok result, rest) ∧ q.run source = (.ok result, rest) := by
  obtain ⟨result, _, rest, hp, hq, rfl⟩ := h.run source
  exact ⟨result, rest, hp, hq⟩

end Rolling

/-! ## Throws -/

theorem saturate_nonneg {value : Int} (h : 0 ≤ value) : 0 ≤ saturate value := by
  unfold saturate leastTotal greatestTotal
  omega

/-- Capping in between makes no difference to a sum that only grows. -/
theorem saturate_saturate_add {sum : Int} (hsum : 0 ≤ sum) (face : Nat) :
    saturate (saturate sum + face) = saturate (sum + face) := by
  unfold saturate leastTotal greatestTotal
  omega

theorem narrow_of_mem {value : Int} (low : leastTotal ≤ value) (high : value ≤ greatestTotal) :
    narrow value = .ok value :=
  if_pos ⟨low, high⟩

/-- A sum of faces keeps clear of both ends of the range in all three steps of a band. -/
theorem Scaling.applyStrict_eq {scaling : Scaling} (h : scaling ≠ .bands 0) {sum : Int}
    (low : 0 ≤ sum) (high : sum ≤ greatestTotal) :
    ∃ value, scaling.apply sum = .ok value ∧ scaling.applyStrict sum = .ok value := by
  cases scaling with
  | times factor => exact ⟨_, rfl, rfl⟩
  | bands width =>
    have hwidth : width ≠ 0 := fun hzero => h (hzero ▸ rfl)
    have hpos : (0 : Int) < width.toNat := by
      have := UInt32.lt_iff_toNat_lt.1 (UInt32.pos_iff_ne_zero.2 hwidth)
      exact Int.ofNat_lt.2 this
    unfold greatestTotal at high
    -- a quotient of a number that is not below minus one is not below it either
    have hleast : -1 ≤ (sum - 1) / (width.toNat : Int) := by
      rw [Int.le_ediv_iff_mul_le hpos]
      omega
    have hgreatest : (sum - 1) / (width.toNat : Int) < 9223372036854775807 := by
      rw [Int.ediv_lt_iff_lt_mul hpos]
      omega
    have hbelow : narrow (sum - 1) = .ok (sum - 1) :=
      narrow_of_mem (by unfold leastTotal; omega) (by unfold greatestTotal; omega)
    have hdivide : divide (sum - 1) width = .ok ((sum - 1) / width.toNat) := by
      rw [divide, if_neg hwidth]
      exact narrow_of_mem (by unfold leastTotal; omega) (by unfold greatestTotal; omega)
    have hband : narrow ((sum - 1) / width.toNat + 1) = .ok ((sum - 1) / width.toNat + 1) :=
      narrow_of_mem (by unfold leastTotal; omega) (by unfold greatestTotal; omega)
    refine ⟨_, if_neg hwidth, ?_⟩
    exact bind_eq_ok_iff.2 ⟨_, hbelow, bind_eq_ok_iff.2 ⟨_, hdivide, hband⟩⟩

namespace Throw

/-- A throw that never divides by zero: its bands have a width, or it is a constant and does not
look at them. -/
def Faultless (t : Throw) : Prop :=
  t.isConstant = true ∨ t.scaling ≠ .bands 0

instance (t : Throw) : Decidable t.Faultless :=
  inferInstanceAs (Decidable (t.isConstant = true ∨ t.scaling ≠ .bands 0))

variable {t : Throw}

theorem adjustStrict_eq (h : t.Faultless) {sum : Int} (low : 0 ≤ sum)
    (high : sum ≤ greatestTotal) :
    ∃ value, t.adjust sum = .ok value ∧ t.adjustStrict sum = .ok value := by
  unfold adjust adjustStrict
  by_cases hconstant : t.isConstant = true
  · rw [if_pos hconstant, if_pos hconstant]
    exact ⟨_, rfl, rfl⟩
  · rw [if_neg hconstant, if_neg hconstant]
    obtain ⟨scaled, hscaled, hstrict⟩ :=
      Scaling.applyStrict_eq (h.resolve_left hconstant) low high
    rw [hscaled, hstrict]
    exact ⟨_, rfl, rfl⟩

theorem leastStrict_eq (h : t.Faultless) :
    ∃ value, t.least = .ok value ∧ t.leastStrict = .ok value := by
  have hcount := t.count.toNat_lt
  exact adjustStrict_eq h (by omega) (by unfold greatestTotal; omega)

theorem greatestStrict_eq (h : t.Faultless) :
    ∃ value, t.greatest = .ok value ∧ t.greatestStrict = .ok value := by
  refine adjustStrict_eq h ?_ (saturate_le_greatestTotal _)
  exact saturate_nonneg (Int.mul_nonneg (Int.natCast_nonneg _) (Int.natCast_nonneg _))

/-- Sums that are capped at every step end at the capped exact sum. -/
theorem together_sumStrict {ε : Type} (sides : UInt32) (count sum : Nat) :
    Together (fun (exact : Nat) (capped : Int) => capped = saturate exact)
      (sumFaces sides count sum : Rolling ε Nat) (sumStrict sides count (saturate sum)) := by
  induction count generalizing sum with
  | zero => exact .done rfl
  | succ count ih =>
    refine .ask sides fun face => ?_
    rw [saturate_saturate_add (Int.natCast_nonneg sum), ← Int.natCast_add]
    exact ih (sum + face.toNat)

theorem together_roll (h : t.Faultless) : Together Eq t.roll t.rollStrict := by
  refine (together_sumStrict t.sides t.count.toNat 0).bind ?_
  rintro sum _ rfl
  obtain ⟨value, hvalue, hstrict⟩ := adjustStrict_eq h
    (saturate_nonneg (Int.natCast_nonneg sum)) (saturate_le_greatestTotal sum)
  rw [hvalue, hstrict]
  exact .done rfl

theorem together_rollAtLeast (h : t.scaling ≠ .bands 0) (floor : Int) :
    Together Eq (t.rollAtLeast floor) (t.rollAtLeastStrict floor) := by
  refine (together_roll (.inr h)).bind ?_
  rintro value _ rfl
  exact .done rfl

end Throw

/-! ## Groups -/

namespace Monster

theorem together_sumRetainers {retainer : Throw} (h : retainer.scaling ≠ .bands 0) (count : Nat)
    (total : UInt32) :
    Together Eq (sumRetainers retainer count total) (sumRetainersStrict retainer count total) := by
  induction count generalizing total with
  | zero => exact .done rfl
  | succ count ih =>
    refine (Throw.together_rollAtLeast h 0).bind ?_
    rintro worth _ rfl
    exact ih _

theorem together_rollGroup {monster : Monster} (h : monster.NoZeroBands) :
    Together Eq monster.rollGroup monster.rollGroupStrict := by
  unfold NoZeroBands throws at h
  unfold rollGroup rollGroupStrict
  cases hworth : monster.worth with
  | each hitDice =>
    have hnumber := h monster.number List.mem_cons_self
    refine (Throw.together_rollAtLeast hnumber 1).bind ?_
    rintro number _ rfl
    exact .done rfl
  | leader level entourage retainer =>
    rw [hworth] at h
    have hentourage := h entourage (by simp)
    have hretainer := h retainer (by simp)
    refine (Throw.together_rollAtLeast hentourage 0).bind ?_
    rintro number _ rfl
    simp only [rollRetainers_eq_sumRetainers]
    refine (together_sumRetainers hretainer _ 0).bind ?_
    rintro worth _ rfl
    exact .done rfl

end Monster

end Wilderness
