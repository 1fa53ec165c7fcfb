import Mathlib.Algebra.Order.BigOperators.Group.List
import Mathlib.Algebra.Order.Ring.Nat
import Wilderness.Dice.Script
import Wilderness.Proofs.Sources
import Wilderness.Proofs.Strict

/-!
# Bounds of throws

Every step from the sum of the faces to the value of a throw is monotone, also where it is capped
(`Throw.adjust_mono`).  Faces on their die add up to a sum between that of all ones and that of all
last faces, so the value lies between the bounds of the throw, and both of them are met
(`Throw.roll_mem_bounds`).
-/

namespace Wilderness

open Rolling

/-! ## Sums of faces -/

theorem length_le_sum {faces : List UInt32} (h : ∀ face ∈ faces, 1 ≤ face) :
    faces.length ≤ (faces.map UInt32.toNat).sum := by
  have hone : ∀ n ∈ faces.map UInt32.toNat, 1 ≤ n := by
    rw [List.forall_mem_map]
    exact fun face hface => UInt32.le_iff_toNat_le.1 (h face hface)
  have hsum := List.card_nsmul_le_sum _ 1 hone
  rwa [List.length_map, Nat.nsmul_eq_mul, Nat.mul_one] at hsum

theorem sum_le_length_mul {faces : List UInt32} {sides : UInt32}
    (h : ∀ face ∈ faces, face ≤ sides) :
    (faces.map UInt32.toNat).sum ≤ faces.length * sides.toNat := by
  have hsides : ∀ n ∈ faces.map UInt32.toNat, n ≤ sides.toNat := by
    rw [List.forall_mem_map]
    exact fun face hface => UInt32.le_iff_toNat_le.1 (h face hface)
  have hsum := List.sum_le_card_nsmul _ _ hsides
  rwa [List.length_map, Nat.nsmul_eq_mul] at hsum

theorem sum_eq_length_mul {faces : List UInt32} {same : UInt32} (h : ∀ face ∈ faces, face = same) :
    (faces.map UInt32.toNat).sum = faces.length * same.toNat := by
  rw [List.eq_replicate_iff.2 ⟨rfl, h⟩, List.map_replicate, List.sum_replicate_nat,
    List.length_replicate]

theorem faceSum_map (sides : UInt32) (faces : List UInt32) :
    faceSum (faces.map fun face => (sides, face)) = (faces.map UInt32.toNat).sum := by
  rw [faceSum, List.map_map]
  rfl

/-! ## Monotone steps -/

theorem Scaling.apply_mono {scaling : Scaling} {a b x y : Int} (hle : a ≤ b)
    (hx : scaling.apply a = .ok x) (hy : scaling.apply b = .ok y) : x ≤ y := by
  cases scaling with
  | times factor =>
    obtain rfl := Except.ok.inj hx
    obtain rfl := Except.ok.inj hy
    exact saturate_mono (Int.mul_le_mul_of_nonneg_right hle (Int.natCast_nonneg _))
  | bands width =>
    obtain ⟨hwidth, rfl⟩ := guard_eq_ok_iff.1 hx
    obtain ⟨-, rfl⟩ := guard_eq_ok_iff.1 hy
    have hpos : (0 : Int) < width.toNat := Int.ofNat_lt.2 (Throw.one_le_toNat_iff.2 hwidth)
    have hband : (a - 1) / (width.toNat : Int) ≤ (b - 1) / width.toNat :=
      Int.ediv_le_ediv hpos (Int.sub_le_sub_right hle 1)
    exact Int.add_le_add_right hband 1

namespace Throw

variable {t : Throw}

theorem adjust_mono {a b x y : Int} (hle : a ≤ b) (hx : t.adjust a = .ok x)
    (hy : t.adjust b = .ok y) : x ≤ y := by
  unfold adjust at hx hy
  by_cases hconstant : t.isConstant = true
  · rw [if_pos hconstant] at hx hy
    cases hx
    cases hy
    exact Int.le_refl _
  · rw [if_neg hconstant, map_eq_ok_iff] at hx hy
    obtain ⟨scaled, hscaled, rfl⟩ := hx
    obtain ⟨scaled', hscaled', rfl⟩ := hy
    exact saturate_mono (Int.add_le_add_right (Scaling.apply_mono hle hscaled hscaled') _)

/-! ## Rolls within bounds -/

/-- A throw that can be rolled: a constant, or dice with sides whose bands have a width. -/
def Rollable (t : Throw) : Prop :=
  t.isConstant = true ∨ 1 ≤ t.sides ∧ t.scaling ≠ .bands 0

instance (t : Throw) : Decidable t.Rollable :=
  inferInstanceAs (Decidable (t.isConstant = true ∨ 1 ≤ t.sides ∧ t.scaling ≠ .bands 0))

theorem Rollable.faultless (h : t.Rollable) : t.Faultless :=
  h.imp_right And.right

theorem run_roll_of_answers {faces : List UInt32} (hcount : faces.length = t.count.toNat)
    {ρ : Type} [FaceSource ρ] {source : ρ}
    (answers : Answers source (faces.map fun face => (t.sides, face))) :
    (t.roll.run source).1 = t.adjust (saturate (faces.map UInt32.toNat).sum) := by
  have hsides : (faces.map fun face => (t.sides, face)).map Prod.fst =
      List.replicate t.count.toNat t.sides := by
    rw [List.map_map, ← hcount]
    exact List.map_const'
  rw [← faceSum_map t.sides faces]
  exact (run_of_trace (trace_roll_iff.2 ⟨hsides, rfl⟩) answers).1

/-- **A roll lies between the bounds of its throw, and both bounds are rolled.** -/
theorem roll_mem_bounds (h : t.Rollable) :
    ∃ least greatest,
      (t.least = .ok least ∧ t.leastStrict = .ok least) ∧
      (t.greatest = .ok greatest ∧ t.greatestStrict = .ok greatest) ∧
      ∀ faces : List UInt32, faces.length = t.count.toNat →
        (∀ face ∈ faces, 1 ≤ face ∧ face ≤ t.sides) →
        ∃ value, least ≤ value ∧ value ≤ greatest ∧
          ((∀ face ∈ faces, face = 1) → value = least) ∧
          ((∀ face ∈ faces, face = t.sides) → value = greatest) ∧
          ∀ {ρ : Type} [FaceSource ρ] (source : ρ),
            Answers source (faces.map fun face => (t.sides, face)) →
              (t.roll.run source).1 = .ok value ∧ (t.rollStrict.run source).1 = .ok value := by
  obtain ⟨least, hleast, hleastStrict⟩ := leastStrict_eq h.faultless
  obtain ⟨greatest, hgreatest, hgreatestStrict⟩ := greatestStrict_eq h.faultless
  refine ⟨least, greatest, ⟨hleast, hleastStrict⟩, ⟨hgreatest, hgreatestStrict⟩, ?_⟩
  intro faces hcount onDie
  have hsaturate : saturate (t.count.toNat : Int) = t.count.toNat := by
    have hlt := t.count.toNat_lt
    exact saturate_of_mem (by unfold leastTotal; omega) (by unfold greatestTotal; omega)
  have hlow : (t.count.toNat : Int) ≤ saturate ((faces.map UInt32.toNat).sum : Nat) := by
    rw [← hsaturate, ← hcount]
    exact saturate_mono (Int.ofNat_le.2 (length_le_sum fun face hface => (onDie face hface).1))
  have hhigh : saturate ((faces.map UInt32.toNat).sum : Nat) ≤
      saturate (t.count.toNat * t.sides.toNat) := by
    rw [← hcount, ← Int.natCast_mul]
    exact saturate_mono (Int.ofNat_le.2 (sum_le_length_mul fun face hface => (onDie face hface).2))
  obtain ⟨value, hvalue, -⟩ := adjustStrict_eq h.faultless
    (saturate_nonneg (Int.natCast_nonneg (faces.map UInt32.toNat).sum))
    (saturate_le_greatestTotal _)
  refine ⟨value, adjust_mono hlow hleast hvalue, adjust_mono hhigh hvalue hgreatest,
    fun hones => ?_, fun hlasts => ?_, fun source answers => ?_⟩
  · rw [sum_eq_length_mul hones, hcount, UInt32.toNat_one, Nat.mul_one, hsaturate] at hvalue
    exact Except.ok.inj (hvalue.symm.trans hleast)
  · rw [sum_eq_length_mul hlasts, hcount, Int.natCast_mul] at hvalue
    exact Except.ok.inj (hvalue.symm.trans hgreatest)
  · obtain ⟨rolled, rest, hroll, hstrict⟩ := (together_roll h.faultless).exists_run source
    have hrun := run_roll_of_answers hcount answers
    rw [hvalue, hroll] at hrun
    obtain rfl := Except.ok.inj hrun
    rw [hroll, hstrict]
    exact ⟨rfl, rfl⟩

/-- Three dice whose product is capped, before the modifier takes something off again. -/
theorem roll_mem_bounds_capped :
    let t := dice 3 4294967295 (.times 4294967295) (-5)
    let faces : List UInt32 := [4294967295, 1, 7]
    t.Rollable ∧ Answers (Script.ofList faces) (faces.map fun face => (t.sides, face)) ∧
      t.least = .ok 12884901880 ∧ t.greatest = .ok 9223372036854775802 ∧
      ∃ value, (t.roll.run (Script.ofList faces)).1 = .ok value ∧
        12884901880 ≤ value ∧ value ≤ 9223372036854775802 := by
  intro t faces
  have hleast : t.least = .ok 12884901880 := by decide +kernel
  have hgreatest : t.greatest = .ok 9223372036854775802 := by decide +kernel
  have hrollable : t.Rollable := by decide
  have onDie : ∀ face ∈ faces, 1 ≤ face ∧ face ≤ t.sides := by
    simp only [faces, List.forall_mem_cons]
    exact ⟨by decide, by decide, by decide, nofun⟩
  have answers : Answers (Script.ofList faces) (faces.map fun face => (t.sides, face)) := by
    decide +kernel
  obtain ⟨least, greatest, ⟨hleast', -⟩, ⟨hgreatest', -⟩, hrolls⟩ := roll_mem_bounds hrollable
  obtain ⟨value, hlow, hhigh, -, -, hrun⟩ := hrolls faces (by decide) onDie
  rw [hleast] at hleast'
  rw [hgreatest] at hgreatest'
  obtain rfl := Except.ok.inj hleast'
  obtain rfl := Except.ok.inj hgreatest'
  exact ⟨hrollable, answers, hleast, hgreatest, value, (hrun _ answers).1, hlow, hhigh⟩

end Throw

end Wilderness
