import Mathlib
import Wilderness.Decimal.Binary

/-!
# Doubles of whole numbers

A whole number of 64 bits becomes a finite double (`Double.isFinite_ofInt`).  The conversion
multiplies and rounds in the unpacked form of doubles; what is followed through it is a bound on the
bits of the mantissa and on the exponent (`Double.Moderate`), which every step raises a little and
which stays far below the greatest exponent of a double.
-/

namespace Wilderness.Double

open Float.Model Float.Model.UnpackedFloat

/-- A number with a mantissa of at most so many bits and an exponent of at most `top`. -/
inductive Moderate (bits top : Nat) : UnpackedFloat → Prop
  | zero (sign : Sign) : Moderate bits top (.zero sign)
  | finite {sign : Sign} {mantissa : Nat} {exponent : Int} {pos : 0 < mantissa} :
      mantissa < 2 ^ bits → exponent ≤ top →
      Moderate bits top (.finite sign mantissa exponent pos)

variable {bits top bits' top' : Nat} {x y : UnpackedFloat}

theorem Moderate.mono (h : Moderate bits top x) (htop : top ≤ top') : Moderate bits top' x := by
  cases h with
  | zero sign => exact .zero sign
  | finite hmantissa hexponent =>
    exact .finite hmantissa (Int.le_trans hexponent (Int.ofNat_le.2 htop))

/-! ## Rounding -/

theorem mantissa_shiftRight_le (m : ExtendedMantissa) (count : Nat) :
    (m >>> count).mantissa ≤ m.mantissa := by
  change (Nat.repeat ExtendedMantissa.shiftRightOne count m).mantissa ≤ m.mantissa
  induction count with
  | zero => exact Nat.le_refl _
  | succ count ih => exact Nat.le_trans (Nat.div_le_self _ 2) ih

theorem roundedMantissa_le (m : ExtendedMantissa) : m.roundedMantissa ≤ m.mantissa + 1 := by
  obtain ⟨mantissa, roundBit, stickyBit⟩ := m
  cases roundBit <;> cases stickyBit <;>
    simp only [ExtendedMantissa.roundedMantissa, ExtendedMantissa.accuracy,
      Accuracy.roundToNearestEven] <;> omega

theorem log2_le_of_lt {n : Nat} (h : n < 2 ^ bits) : n.log2 ≤ bits := by
  by_cases hn : n = 0
  · subst hn
    simp
  · exact Nat.le_of_lt ((Nat.log2_lt hn).2 h)

section Rounding

variable {mantissa : Nat} {exponent : Int} {sign : Sign}

theorem targetExponent_le (hmantissa : mantissa < 2 ^ bits) (hexponent : exponent ≤ top) :
    Format.binary64.targetExponent (totalExponent mantissa exponent) ≤ (top + bits : Nat) := by
  have hlog := log2_le_of_lt hmantissa
  simp only [Format.targetExponent, totalExponent, Format.mantissaBits, Format.minExponent]
  omega

theorem shiftToTargetExponent_le (accuracy : Accuracy) (hmantissa : mantissa < 2 ^ bits)
    (hexponent : exponent ≤ top) :
    (shiftToTargetExponent .binary64 mantissa exponent accuracy).1.mantissa ≤ mantissa ∧
      (shiftToTargetExponent .binary64 mantissa exponent accuracy).2 ≤ (top + bits : Nat) := by
  have htarget := targetExponent_le hmantissa hexponent
  simp only [shiftToTargetExponent, shiftToExponent]
  constructor
  · refine Nat.le_trans (mantissa_shiftRight_le _ _) (Nat.le_of_eq ?_)
    unfold ExtendedMantissa.ofMantissaAndAccuracy
    split <;> rfl
  · omega

/-- Rounding may carry into one more bit, after which the exponent is fitted once more. -/
theorem moderate_roundWithAccuracy (accuracy : Accuracy) (hmantissa : mantissa < 2 ^ bits)
    (hexponent : exponent ≤ top) :
    Moderate (bits + 1) (top + bits + (bits + 1))
      (roundWithAccuracy .binary64 sign mantissa exponent accuracy) := by
  obtain ⟨hfirst, hfirstExponent⟩ := shiftToTargetExponent_le accuracy hmantissa hexponent
  have hrounded :=
    roundedMantissa_le (shiftToTargetExponent .binary64 mantissa exponent accuracy).1
  have hcarried : (shiftToTargetExponent .binary64 mantissa exponent accuracy).1.roundedMantissa <
      2 ^ (bits + 1) := by
    rw [Nat.pow_succ]
    omega
  obtain ⟨hlast, hlastExponent⟩ := shiftToTargetExponent_le .exact hcarried hfirstExponent
  simp only [roundWithAccuracy]
  split
  · exact .zero sign
  · exact .finite (Nat.lt_of_le_of_lt hlast hcarried) hlastExponent

end Rounding

/-! ## Products and negated numbers -/

theorem Moderate.mul (hx : Moderate bits top x) (hy : Moderate bits' top' y) :
    Moderate (bits + bits' + 1) (top + top' + (bits + bits') + (bits + bits' + 1))
      (UnpackedFloat.mul .binary64 x y) := by
  cases hx with
  | zero sign =>
    cases hy with
    | zero sign' => exact .zero _
    | finite => exact .zero _
  | finite hxMantissa hxExponent =>
    cases hy with
    | zero sign' => exact .zero _
    | finite hyMantissa hyExponent =>
      apply moderate_roundWithAccuracy
      · rw [Nat.pow_add]
        exact Nat.mul_lt_mul'' hxMantissa hyMantissa
      · omega

theorem Moderate.neg (hx : Moderate bits top x) : Moderate bits top x.neg := by
  cases hx with
  | zero sign => exact .zero _
  | finite hmantissa hexponent => exact .finite hmantissa hexponent

/-! ## Packing -/

theorem moderate_unpack_packComponents {sign : Sign} {exponent : BitVec 11}
    {mantissa : BitVec 52} (hfinite : exponent ≠ -1#11) (htop : exponent.toNat ≤ top + 1075) :
    Moderate 53 top (UnpackedFloat.unpack .binary64
      (packComponents .binary64 sign exponent mantissa)) := by
  have hbias : Format.binary64.exponentBias = 1023 := rfl
  have hmantissa : mantissa.toNat < 2 ^ 52 := mantissa.isLt
  simp only [UnpackedFloat.unpack, unpackMantissa_packComponents, unpackExponent_packComponents,
    hbias]
  rw [if_neg hfinite]
  split
  · next hsubnormal =>
    split
    · exact .zero _
    · exact .finite (by omega) (by rw [hsubnormal, BitVec.toNat_zero]; omega)
  · exact .finite (1#1 ++ mantissa).isLt (by omega)

/-- What is packed is cut to the bits of a double and keeps the bound on its exponent. -/
theorem Moderate.pack (hx : Moderate bits top x) (htop : top ≤ 971) :
    Moderate 53 top (Float.Model.pack x).unpack := by
  change Moderate 53 top (UnpackedFloat.unpack .binary64 (UnpackedFloat.pack .binary64 x))
  cases hx with
  | zero sign => exact moderate_unpack_packComponents (by decide) (Nat.zero_le _)
  | @finite sign mantissa exponent _ hmantissa hexponent =>
    have hbias : Format.binary64.exponentBias = 1023 := rfl
    have hbiased : (exponent + (1023 : Nat) + (52 : Nat)).toNat ≤ top + 1075 := by omega
    simp only [UnpackedFloat.pack, hbias]
    rw [if_neg (by omega)]
    generalize (exponent + (1023 : Nat) + (52 : Nat)).toNat = biased at hbiased ⊢
    split
    · have hvalue : (BitVec.ofNat 11 biased).toNat = biased := by
        rw [BitVec.toNat_ofNat, Nat.mod_eq_of_lt (by omega)]
      refine moderate_unpack_packComponents (fun hinfinite => ?_) (by omega)
      have hall : biased = 2047 := by
        rw [← hvalue, hinfinite]
        rfl
      omega
    · exact moderate_unpack_packComponents (by decide) (Nat.zero_le _)

theorem isFinite_of_moderate {value : Float} (h : Moderate bits top value.toModel.unpack) :
    value.isFinite = true := by
  change value.toModel.unpack.isFinite = true
  generalize value.toModel.unpack = unpacked at h
  cases h with
  | zero => rfl
  | finite => rfl

/-! ## Whole numbers -/

variable {n : Nat}

/-- A whole number of 64 bits is shifted by at most the width of a mantissa, then rounded. -/
theorem moderate_ofNat (hn : n < 2 ^ 64) : Moderate 118 235 (UnpackedFloat.ofNat .binary64 n) := by
  have htarget : -53 ≤ Format.binary64.targetExponent (totalExponent n 0) := by
    simp only [Format.targetExponent, totalExponent, Format.mantissaBits, Format.minExponent]
    omega
  have hshifted :
      n <<< (0 - Format.binary64.targetExponent (totalExponent n 0)).toNat < 2 ^ 117 := by
    rw [Nat.shiftLeft_eq]
    calc
      n * 2 ^ (0 - Format.binary64.targetExponent (totalExponent n 0)).toNat
        ≤ n * 2 ^ 53 := Nat.mul_le_mul_left n (Nat.pow_le_pow_right (by decide) (by omega))
      _ < 2 ^ 117 := by omega
  have hround : ∀ sign, Moderate (117 + 1) (0 + 117 + (117 + 1))
      (UnpackedFloat.round .binary64 sign n 0) := by
    intro sign
    simp only [UnpackedFloat.round, decreaseExponent]
    exact moderate_roundWithAccuracy .exact hshifted (by omega)
  simp only [UnpackedFloat.ofNat, UnpackedFloat.ofInt, UnpackedFloat.normalize]
  split
  · next hneg => exact absurd (Int.compare_eq_lt.1 hneg) (by omega)
  · exact .zero _
  · exact hround _

/-- The way of numbers that have more bits than a mantissa. -/
theorem moderate_ofScientific (hn : n < 2 ^ 64) :
    Moderate 119 237 (UnpackedFloat.ofScientific .binary64 n 0) := by
  have hdigits : ∀ h, Moderate 117 0 (.finite .positive
      (n <<< Format.binary64.mantissaBits) (-Format.binary64.mantissaBits) h) := by
    intro h
    refine .finite ?_ (by decide)
    change n <<< 53 < 2 ^ 117
    rw [Nat.shiftLeft_eq]
    omega
  have hpower : ∀ h, Moderate 1 0 (.finite .positive (10 ^ (0 : Int).toNat) 0 h) :=
    fun h => .finite (by decide) (by decide)
  have hlog : ¬(0 : Int) < -(2 ^ Format.binary64.exponentBits + n.log2) := by
    change ¬(0 : Int) < -(2 ^ 11 + n.log2)
    omega
  unfold UnpackedFloat.ofScientific
  split
  · exact .zero _
  · rw [if_neg (by decide), if_pos (by decide)]
    exact (hdigits _).mul (hpower _)

theorem unpack_one : (Float.ofBits 0x3FF0000000000000).toModel.unpack =
    .finite .positive (2 ^ 52) (-52) (by decide) := by
  rfl

theorem moderate_floatOfNat (hn : n < 2 ^ 64) :
    Moderate 53 500 (Float.ofNat n).toModel.unpack := by
  change Moderate 53 500 (Float.ofScientific n false 0).toModel.unpack
  unfold Float.ofScientific
  split
  · have hone : Moderate 53 0 (Float.ofBits 0x3FF0000000000000).toModel.unpack := by
      rw [unpack_one]
      exact .finite (by decide) (by decide)
    have hword : Moderate 118 235 (UnpackedFloat.ofUInt64 .binary64 n.toUInt64) := by
      rw [UnpackedFloat.ofUInt64, UInt64.toNat_ofNat_of_lt' hn]
      exact moderate_ofNat hn
    exact (((hword.pack (by decide)).mul hone).pack (by decide)).mono (by decide)
  · exact ((moderate_ofScientific hn).pack (by decide)).mono (by decide)

/-- **A whole number of 64 bits, with a sign or without, becomes a finite double.** -/
theorem isFinite_ofInt {value : Int} (hlow : -2 ^ 63 ≤ value) (hhigh : value < 2 ^ 64) :
    (Float.ofInt value).isFinite = true := by
  cases value with
  | ofNat n => exact isFinite_of_moderate (moderate_floatOfNat (Int.ofNat_lt.1 hhigh))
  | negSucc n =>
    have hn : Moderate 53 500 (Float.ofNat (n + 1)).toModel.unpack :=
      moderate_floatOfNat (by omega)
    exact isFinite_of_moderate (hn.neg.pack (by decide))

end Wilderness.Double
