import Mathlib.Algebra.BigOperators.Field
import Mathlib.Algebra.BigOperators.Fin
import Mathlib.Algebra.BigOperators.Intervals
import Mathlib.Tactic.FieldSimp
import Mathlib.Tactic.Linarith
import Mathlib.Tactic.Ring
import Wilderness.Dice.Throw.Mean
import Wilderness.Proofs.ExactThrows

/-!
# Means of throws

All falls of some dice are equally likely, and a number that is given by the sum of the faces has an
average over them (`Fall.average`).  Adding a die to a distribution of sums takes a mean over the
faces of that die (`Throw.expected_addDie`), and so does adding a die to all falls
(`Fall.average_succ`); so a mean over the distribution of sums is an average over all falls
(`Throw.expected_distribution`).  With exact fractions the mean value of a throw that can be written
is the average of what its falls are worth, with or without bands
(`Throw.Writable.meanBy_eq_average`).
-/

namespace Wilderness

open Rolling

/-! ## Falls -/

/-- A way for so many dice to fall: a face for each of them. -/
abbrev Fall (count sides : Nat) : Type :=
  Fin count → Finset.Icc 1 sides

namespace Fall

variable {count sides : Nat}

/-- The sum of the faces. -/
def sum (fall : Fall count sides) : Nat :=
  ∑ die, (fall die : Nat)

/-- The dice with their faces, as they are handed out. -/
def handed {sides : UInt32} (fall : Fall count sides.toNat) : List (UInt32 × UInt32) :=
  List.ofFn fun die => (sides, UInt32.ofNat (fall die))

/-- The average, over all falls, of a number that is given by the sum of the faces. -/
def average (count sides : Nat) (value : Nat → ℚ) : ℚ :=
  (∑ fall : Fall count sides, value fall.sum) / (sides : ℚ) ^ count

theorem card (count sides : Nat) : Fintype.card (Fall count sides) = sides ^ count := by
  simp [Fall]

theorem average_zero (sides : Nat) (value : Nat → ℚ) : average 0 sides value = value 0 := by
  rw [average, Fintype.sum_unique, pow_zero, div_one]
  rfl

/-- One more die falls once with each of its faces to every fall of the others. -/
theorem average_succ (count sides : Nat) (value : Nat → ℚ) :
    average (count + 1) sides value =
      average count sides fun sum => (∑ face ∈ Finset.Icc 1 sides, value (sum + face)) / sides := by
  have hsum : ∑ fall : Fall (count + 1) sides, value fall.sum =
      ∑ fall : Fall count sides, ∑ face ∈ Finset.Icc 1 sides, value (fall.sum + face) := by
    rw [← (Fin.consEquiv fun _ => Finset.Icc 1 sides).sum_comp, Fintype.sum_prod_type_right]
    apply Finset.sum_congr rfl
    intro fall _
    rw [← Finset.sum_coe_sort (Finset.Icc 1 sides) fun face => value (sum fall + face)]
    apply Finset.sum_congr rfl
    intro face _
    rw [sum, Fin.sum_univ_succ, Nat.add_comm]
    rfl
  rw [average, average, hsum, ← Finset.sum_div, div_div, pow_succ']

theorem average_const (count : Nat) {sides : Nat} (pos : 0 < sides) (value : ℚ) :
    average count sides (fun _ => value) = value := by
  have hways : ((sides ^ count : Nat) : ℚ) ≠ 0 := Nat.cast_ne_zero.2 (Nat.pow_pos pos).ne'
  rw [average, Finset.sum_const, Finset.card_univ, card, nsmul_eq_mul, ← Nat.cast_pow,
    mul_div_cancel_left₀ value hways]

theorem sum_faces (sides : Nat) :
    ∑ face ∈ Finset.Icc 1 sides, (face : ℚ) = sides * (sides + 1) / 2 := by
  induction sides with
  | zero => simp
  | succ sides ih =>
    rw [Finset.sum_Icc_succ_top (Nat.succ_pos sides), ih]
    push_cast
    ring

/-- The average of a multiple of the sum of the faces. -/
theorem average_linear (count : Nat) {sides : Nat} (pos : 0 < sides) (factor offset : ℚ) :
    average count sides (fun sum => sum * factor + offset) =
      count * (sides + 1) / 2 * factor + offset := by
  have hsides : (sides : ℚ) ≠ 0 := Nat.cast_ne_zero.2 pos.ne'
  induction count generalizing offset with
  | zero => simp [average_zero]
  | succ count ih =>
    have hdie : ∀ sum : Nat,
        (∑ face ∈ Finset.Icc 1 sides, (((sum + face : Nat) : ℚ) * factor + offset)) / sides =
          sum * factor + ((sides + 1) / 2 * factor + offset) := by
      intro sum
      simp only [Nat.cast_add, add_mul, add_assoc, Finset.sum_add_distrib, Finset.sum_const,
        Nat.card_Icc, Nat.add_sub_cancel, nsmul_eq_mul, ← Finset.sum_mul, sum_faces]
      field_simp
    simp only [average_succ, hdie, ih]
    push_cast
    ring

end Fall

/-! ## Sums -/

theorem sum_eq_sum_range (numbers : Array ℚ) :
    numbers.sum = ∑ i ∈ Finset.range numbers.size, numbers.getD i 0 := by
  rw [← Array.sum_toList, ← Fin.sum_univ_getElem, Finset.sum_range]
  simp

theorem foldl_add_eq_sum_Ico (numbers : Array ℚ) (start stop : Nat) :
    numbers.foldl (· + ·) 0 start stop =
      ∑ i ∈ Finset.Ico start (min stop numbers.size), numbers.getD i 0 := by
  rw [Array.foldl_eq_foldl_extract, ← Array.sum_eq_foldl, sum_eq_sum_range,
    Finset.sum_Ico_eq_sum_range, Array.size_extract]
  apply Finset.sum_congr rfl
  intro i hi
  rw [Finset.mem_range] at hi
  rw [Array.getD_eq_getD_getElem?, Array.getD_eq_getD_getElem?, Array.getElem?_extract, if_pos hi]

/-- The sums that lie a face above another one. -/
theorem sum_Icc_add (before sides : Nat) (value : Nat → ℚ) :
    ∑ sum ∈ Finset.Icc (before + 1) (before + sides), value sum =
      ∑ face ∈ Finset.Icc 1 sides, value (before + face) := by
  rw [← Finset.map_add_left_Icc, Finset.sum_map]
  rfl

namespace Throw

/-! ## Distributions -/

/-- The mean over a distribution of sums of a number that is given by the sum. -/
def expected (chances : Array ℚ) (value : Nat → ℚ) : ℚ :=
  ∑ sum ∈ Finset.range chances.size, chances.getD sum 0 * value sum

theorem size_addDie (sides : Nat) (chances : Array ℚ) :
    (addDie Int.cast sides chances).size = chances.size + sides := by
  rw [addDie, Array.size_ofFn]

/-- A sum with one more die comes from the sums before that lie a face below it. -/
theorem getD_addDie (sides : Nat) (chances : Array ℚ) {sum : Nat}
    (h : sum < chances.size + sides) :
    (addDie Int.cast sides chances).getD sum 0 =
      ∑ before ∈ Finset.Ico (sum - sides) (min sum chances.size),
        chances.getD before 0 / sides := by
  rw [addDie, Array.getD_eq_getD_getElem?, Array.getElem?_ofFn, dif_pos h, Option.getD_some]
  simp only [Int.cast_zero, Int.cast_one, Int.cast_natCast]
  rw [foldl_add_eq_sum_Ico, Array.size_map]
  apply Finset.sum_congr rfl
  intro before _
  rw [Array.getD_eq_getD_getElem?, Array.getD_eq_getD_getElem?, Array.getElem?_map]
  cases chances[before]? with
  | none => simp
  | some chance => exact mul_one_div chance sides

/-- A die that is added moves every sum up by each of its faces, which are equally likely. -/
theorem expected_addDie (sides : Nat) (chances : Array ℚ) (value : Nat → ℚ) :
    expected (addDie Int.cast sides chances) value =
      expected chances fun sum => (∑ face ∈ Finset.Icc 1 sides, value (sum + face)) / sides := by
  have hentry : ∀ sum ∈ Finset.range (chances.size + sides),
      (addDie Int.cast sides chances).getD sum 0 * value sum =
        ∑ before ∈ Finset.Ico (sum - sides) (min sum chances.size),
          chances.getD before 0 / sides * value sum := by
    intro sum hsum
    rw [getD_addDie sides chances (Finset.mem_range.1 hsum), Finset.sum_mul]
  -- a sum and the one before it are a face apart, from whichever of them the face is counted
  have hswap : ∑ sum ∈ Finset.range (chances.size + sides),
        ∑ before ∈ Finset.Ico (sum - sides) (min sum chances.size),
          chances.getD before 0 / sides * value sum =
      ∑ before ∈ Finset.range chances.size,
        ∑ sum ∈ Finset.Icc (before + 1) (before + sides),
          chances.getD before 0 / sides * value sum := by
    apply Finset.sum_comm'
    intro sum before
    simp only [Finset.mem_range, Finset.mem_Ico, Finset.mem_Icc]
    omega
  rw [expected, size_addDie, Finset.sum_congr rfl hentry, hswap]
  apply Finset.sum_congr rfl
  intro before _
  rw [← Finset.mul_sum, sum_Icc_add, div_mul_eq_mul_div, mul_div_assoc]

/-- The distribution of the sum of so many dice. -/
def distribution (sides : Nat) : (count : Nat) → Array ℚ
  | 0 => #[1]
  | count + 1 => addDie Int.cast sides (distribution sides count)

theorem sumDistribution_eq (t : Throw) :
    t.sumDistribution Int.cast = distribution t.sides.toNat t.count.toNat := by
  unfold sumDistribution
  induction t.count.toNat with
  | zero => simp [distribution]
  | succ count ih =>
    rw [List.range_succ, List.foldl_append, ih]
    rfl

theorem size_distribution (sides count : Nat) :
    (distribution sides count).size = count * sides + 1 := by
  induction count with
  | zero => simp [distribution]
  | succ count ih =>
    rw [distribution, size_addDie, ih, Nat.succ_mul]
    omega

theorem expected_distribution (sides count : Nat) (value : Nat → ℚ) :
    expected (distribution sides count) value = Fall.average count sides value := by
  induction count generalizing value with
  | zero => simp [expected, distribution, Fall.average_zero]
  | succ count ih => rw [distribution, expected_addDie, ih, Fall.average_succ]

/-- The chance of a sum is the mean of the number that is one for this sum and zero for others. -/
theorem getElem_distribution {sides count sum : Nat} (h : sum < (distribution sides count).size) :
    (distribution sides count)[sum] =
      Fintype.card {fall : Fall count sides // fall.sum = sum} / (sides : ℚ) ^ count := by
  have hentry : (distribution sides count)[sum] =
      expected (distribution sides count) fun other => if other = sum then 1 else 0 := by
    rw [expected]
    simp [h, Array.getD]
  rw [hentry, expected_distribution, Fall.average, Finset.sum_boole, Fintype.card_subtype]

theorem sum_distribution {sides : Nat} (pos : 0 < sides) (count : Nat) :
    (distribution sides count).sum = 1 := by
  rw [← Fall.average_const count pos 1, ← expected_distribution, expected, sum_eq_sum_range]
  simp only [mul_one]

theorem foldl_zipIdx_eq_expected (chances : Array ℚ) (value : Nat → ℚ) :
    chances.zipIdx.foldl (fun mean (chance, sum) => mean + chance * value sum) 0 =
      expected chances value := by
  have hmap : chances.zipIdx.foldl (fun mean (chance, sum) => mean + chance * value sum) 0 =
      (chances.zipIdx.map fun (chance, sum) => chance * value sum).foldl (· + ·) 0 :=
    Array.foldl_map.symm
  rw [hmap, ← Array.sum_eq_foldl, sum_eq_sum_range, expected, Array.size_map, Array.size_zipIdx]
  apply Finset.sum_congr rfl
  intro sum hsum
  have hlt := Finset.mem_range.1 hsum
  simp [Array.getD, hlt]

/-! ## Values of falls -/

theorem faceSum_handed {count : Nat} {sides : UInt32} (fall : Fall count sides.toNat) :
    faceSum fall.handed = fall.sum := by
  rw [faceSum, Fall.handed, List.map_ofFn, List.sum_ofFn, Fall.sum]
  apply Finset.sum_congr rfl
  intro die _
  have hface := (Finset.mem_Icc.1 (fall die).2).2
  exact UInt32.toNat_ofNat_of_lt' (Nat.lt_of_le_of_lt hface sides.toNat_lt)

theorem map_fst_handed {count : Nat} {sides : UInt32} (fall : Fall count sides.toNat) :
    fall.handed.map Prod.fst = List.replicate count sides := by
  rw [Fall.handed, List.map_ofFn]
  exact List.ofFn_const count sides

variable {t : Throw}

/-- A throw that can be written rolls the exact value of any fall of its dice. -/
theorem Writable.exists_value (h : t.Writable) (fall : Fall t.count.toNat t.sides.toNat) :
    ∃ scaled, t.scaling.Makes fall.sum scaled ∧
      t.adjust fall.sum = .ok (scaled + t.modifier.toInt) ∧
      Trace t.roll fall.handed (.ok (scaled + t.modifier.toInt)) := by
  have hsides := map_fst_handed fall
  have hlength := congrArg List.length hsides
  rw [List.length_map, List.length_replicate] at hlength
  obtain ⟨value, hvalue, hexact⟩ := h.exact hlength
  have htrace : Trace t.roll fall.handed (.ok value) := trace_roll_iff.2 ⟨hsides, hvalue.symm⟩
  cases hexact with
  | constant _ hnone =>
    rw [hnone] at hlength
    exact absurd (hlength ▸ h.count.1) (by decide)
  | @dice scaled _ hshown hmakes _ _ =>
    have hrange := hshown fall.handed.length
    rw [List.take_length] at hrange
    rw [saturate_of_mem hrange.1 hrange.2, faceSum_handed] at hvalue
    rw [faceSum_handed] at hmakes
    exact ⟨scaled, hmakes, hvalue, htrace⟩

/-- The value of a throw for a sum of its faces. -/
def valueOf (t : Throw) (sum : Nat) : Int :=
  (t.adjust sum).toOption.getD 0

theorem valueOf_eq {sum : Nat} {value : Int} (h : t.adjust sum = .ok value) :
    t.valueOf sum = value := by
  rw [valueOf, h]
  rfl

theorem Writable.valueOf_of_times (h : t.Writable) {factor : UInt32}
    (scaling : t.scaling = .times factor) (fall : Fall t.count.toNat t.sides.toNat) :
    (t.valueOf fall.sum : ℚ) = fall.sum * factor.toNat + t.modifier.toInt := by
  obtain ⟨scaled, hmakes, hadjust, -⟩ := h.exists_value fall
  rw [scaling] at hmakes
  rw [valueOf_eq hadjust]
  cases hmakes
  push_cast
  ring

/-! ## Means -/

/-- The closed formula of a multiplied throw and the mean over the distribution of a throw in bands
are both the average over all falls. -/
theorem Writable.meanBy_eq_average (h : t.Writable) :
    t.meanBy Int.cast =
      .ok (Fall.average t.count.toNat t.sides.toNat fun sum => (t.valueOf sum : ℚ)) := by
  have hconstant : ¬t.isConstant = true := by
    simpa [isConstant] using one_le_toNat_iff.1 h.count.1
  rw [meanBy, if_neg hconstant]
  cases hscaling : t.scaling with
  | times factor =>
    have haverage : (Fall.average t.count.toNat t.sides.toNat fun sum => (t.valueOf sum : ℚ)) =
        Fall.average t.count.toNat t.sides.toNat
          fun sum => sum * factor.toNat + t.modifier.toInt := by
      rw [Fall.average, Fall.average,
        Finset.sum_congr rfl fun fall _ => h.valueOf_of_times hscaling fall]
    rw [haverage, Fall.average_linear _ h.sides.1]
    push_cast
    rfl
  | bands width =>
    have hlimits : t.isWithinLimits = true :=
      isWithinLimits_iff.2 ⟨h.count.2, h.sides.2, h.factor.2⟩
    have hwidth : width ≠ 0 := by
      have hfactor := one_le_toNat_iff.1 h.factor.1
      rwa [hscaling] at hfactor
    rw [hlimits, ← expected_distribution, ← sumDistribution_eq, ← foldl_zipIdx_eq_expected]
    simp only [hwidth]
    rfl

/-- **The mean of a throw that was read from a text.** -/
theorem meanBy_of_parse {text : String} (parsed : parse text = .ok t)
    (dice : t.isConstant = false) :
    let chances : Array ℚ := t.sumDistribution Int.cast
    let ways : ℚ := (t.sides.toNat : ℚ) ^ t.count.toNat
    -- the chance of a sum is the part of all falls that add up to it
    chances.size = t.count.toNat * t.sides.toNat + 1 ∧
    (∀ (sum : Nat) (h : sum < chances.size), chances[sum] =
      Fintype.card {fall : Fall t.count.toNat t.sides.toNat // fall.sum = sum} / ways) ∧
    chances.sum = 1 ∧
    -- the mean is the average of what all falls are worth
    ∃ value : Fall t.count.toNat t.sides.toNat → Int,
      (∀ fall, Trace t.roll fall.handed (.ok (value fall)) ∧
        ∀ {ρ : Type} [FaceSource ρ] (source : ρ), Answers source fall.handed →
          (t.roll.run source).1 = .ok (value fall)) ∧
      t.meanBy Int.cast = .ok ((∑ fall, (value fall : ℚ)) / ways) := by
  have hcount : t.count ≠ 0 := by simpa [isConstant] using dice
  have h : t.Writable := (expressible_of_parse parsed).writable hcount
  simp only [sumDistribution_eq]
  refine ⟨size_distribution _ _, fun sum hsum => getElem_distribution hsum,
    sum_distribution h.sides.1 _, fun fall => t.valueOf fall.sum, fun fall => ?_,
    h.meanBy_eq_average⟩
  obtain ⟨scaled, -, hadjust, htrace⟩ := h.exists_value fall
  rw [← valueOf_eq hadjust] at htrace
  exact ⟨htrace, fun source answers => (run_of_trace htrace answers).1⟩

/-- Two dice in bands: six of their falls add up to seven, and all thirty-six are worth 76. -/
theorem meanBy_of_parse_bands :
    let t := dice 2 6 (.bands 4)
    parse "2d6/4" = .ok t ∧ t.isConstant = false ∧ t.meanBy Int.cast = .ok (19 / 9 : ℚ) ∧
      Fintype.card {fall : Fall t.count.toNat t.sides.toNat // fall.sum = 7} = 6 ∧
      ∃ value : Fall t.count.toNat t.sides.toNat → Int,
        (∀ fall, Trace t.roll fall.handed (.ok (value fall))) ∧ ∑ fall, value fall = 76 := by
  intro t
  have parsed : parse "2d6/4" = .ok t := by rfl
  have hdice : t.isConstant = false := by rfl
  have hmean : t.meanBy Int.cast = .ok (19 / 9 : ℚ) := by decide +kernel
  have hchance : (t.sumDistribution Int.cast)[7]? = some (1 / 6 : ℚ) := by decide +kernel
  have hways : (t.sides.toNat : ℚ) ^ t.count.toNat = 36 := by decide +kernel
  obtain ⟨hsize, hentry, -, value, hvalue, haverage⟩ := meanBy_of_parse parsed hdice
  rw [hways] at hentry haverage
  obtain ⟨hseven, hchance⟩ := Array.getElem?_eq_some_iff.1 hchance
  have hcard :
      (Fintype.card {fall : Fall t.count.toNat t.sides.toNat // fall.sum = 7} : ℚ) = 6 := by
    have hpart := (hentry 7 hseven).symm.trans hchance
    linarith
  have htotal : ∑ fall, (value fall : ℚ) = 76 := by
    have hpart := Except.ok.inj (haverage.symm.trans hmean)
    linarith
  exact ⟨parsed, hdice, hmean, by exact_mod_cast hcard, value, fun fall => (hvalue fall).1,
    by exact_mod_cast htotal⟩

end Throw

end Wilderness
