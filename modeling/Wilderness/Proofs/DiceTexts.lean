import Wilderness.Proofs.WrittenThrows

/-!
# Dice with numbers of any size

The texts in the form of dice, whatever the size of the numbers in them (`Throw.DiceText`).  Such a
text is read as dice if its numbers keep the limits of the written form, and refused as too large if
they do not, but only as long as they fit a word of 32 bits (`Throw.parse_of_diceText`).  A number
beyond that is no number to the reader, and the text is refused as no dice at all
(`Throw.parse_legion`).
-/

namespace Wilderness.Throw

open Text

/-! ## The form of dice -/

/-- The numbers in a text of dice. -/
structure DiceNumbers where
  count : Nat
  sides : Nat
  factor : Nat
  modifier : Int

namespace DiceNumbers

/-- There are dice, sides and a scaling. -/
def Positive (numbers : DiceNumbers) : Prop :=
  numbers.count ≠ 0 ∧ numbers.sides ≠ 0 ∧ numbers.factor ≠ 0

/-- The dice, the sides and the scaling keep the limits of the written form. -/
def WithinLimits (numbers : DiceNumbers) : Prop :=
  numbers.count ≤ 100 ∧ numbers.sides ≤ 1000 ∧ numbers.factor ≤ 1000

/-- The dice, the sides and the scaling are words of 32 bits. -/
def Fit (numbers : DiceNumbers) : Prop :=
  numbers.count ≤ 4294967295 ∧ numbers.sides ≤ 4294967295 ∧ numbers.factor ≤ 4294967295

theorem WithinLimits.fit {numbers : DiceNumbers} (h : numbers.WithinLimits) : numbers.Fit := by
  unfold WithinLimits at h
  unfold Fit
  omega

/-- The throw has these numbers. -/
structure Of (numbers : DiceNumbers) (t : Throw) : Prop where
  count : t.count.toNat = numbers.count
  sides : t.sides.toNat = numbers.sides
  factor : t.scaling.factor.toNat = numbers.factor
  modifier : t.modifier.toInt = numbers.modifier

theorem Of.isWithinLimits_iff {numbers : DiceNumbers} {t : Throw} (h : numbers.Of t) :
    t.isWithinLimits = true ↔ numbers.WithinLimits := by
  rw [Throw.isWithinLimits_iff, h.count, h.sides, h.factor, WithinLimits]

end DiceNumbers

/-- The factor of a multiplication or the width of bands, which is one if nothing is written. -/
inductive FactorText : List Char → Nat → Prop
  | absent : FactorText [] 1
  | times {text : List Char} {n : Nat} : Numeral text n → FactorText ('x' :: text) n
  | bands {text : List Char} {n : Nat} : Numeral text n → FactorText ('/' :: text) n

/-- The texts in the form of dice. -/
inductive DiceText : List Char → DiceNumbers → Prop
  | parts {count sides scaling modifier : List Char} {numbers : DiceNumbers} :
      CountText count numbers.count → Numeral sides numbers.sides →
      FactorText scaling numbers.factor → ModifierText modifier numbers.modifier →
      DiceText (count ++ 'd' :: (sides ++ (scaling ++ modifier))) numbers

theorem ScalingText.factorText {text : List Char} {scaling : Scaling}
    (h : ScalingText text scaling) : FactorText text scaling.factor.toNat := by
  cases h with
  | absent => exact .absent
  | times h => exact .times h
  | bands h => exact .bands h

theorem toNat_ne_zero_iff {w : UInt32} : w.toNat ≠ 0 ↔ w ≠ 0 :=
  Nat.one_le_iff_ne_zero.symm.trans one_le_toNat_iff

theorem FactorText.exists_scalingText {text : List Char} {n : Nat} (h : FactorText text n)
    (hn : n ≤ 4294967295) :
    ∃ scaling, ScalingText text scaling ∧ scaling.factor.toNat = n := by
  have hword := toNat_ofNat_of_le hn
  cases h with
  | absent => exact ⟨.times 1, .absent, rfl⟩
  | times h => exact ⟨.times (UInt32.ofNat n), .times (hword.symm ▸ h), hword⟩
  | bands h => exact ⟨.bands (UInt32.ofNat n), .bands (hword.symm ▸ h), hword⟩

theorem FactorText.endsRun_append {text rest : List Char} {n : Nat} (h : FactorText text n)
    (hrest : EndsRun Char.isDigit rest) : EndsRun Char.isDigit (text ++ rest) := by
  cases h with
  | absent => exact hrest
  | times => exact endsRun_cons (by decide)
  | bands => exact endsRun_cons (by decide)

/-! ## Numbers that fit -/

theorem exists_readCount {text : List Char} {n : Nat} (h : CountText text n) (pos : n ≠ 0)
    (hn : n ≤ 4294967295) : ∃ w, readCount text = .ok w ∧ w.toNat = n := by
  have hword := toNat_ofNat_of_le hn
  rw [← hword] at h pos
  exact ⟨UInt32.ofNat n, readCount_eq_ok_iff.2 ⟨h, toNat_ne_zero_iff.1 pos⟩, hword⟩

theorem exists_readPositive (zero : ThrowDefect) {digits rest : List Char} {n : Nat}
    (h : Numeral digits n) (hends : EndsRun Char.isDigit rest) (pos : n ≠ 0)
    (hn : n ≤ 4294967295) :
    ∃ w, readPositive zero (digits ++ rest) = .ok (w, rest) ∧ w.toNat = n := by
  have hword := toNat_ofNat_of_le hn
  rw [← hword] at h pos
  exact ⟨UInt32.ofNat n,
    readPositive_eq_ok_iff.2 ⟨⟨digits, rfl, h, hends⟩, toNat_ne_zero_iff.1 pos⟩, hword⟩

/-- Dice whose numbers fit are read, if they keep the limits. -/
theorem exists_readNormal {text : List Char} {numbers : DiceNumbers} (h : DiceText text numbers)
    (positive : numbers.Positive) (fit : numbers.Fit)
    (small : numbers.modifier.natAbs ≤ 4294967295) :
    ∃ t, numbers.Of t ∧
      readNormal text = if t.isWithinLimits then .ok t else .error .tooLarge := by
  cases h with
  | parts hcount hsides hfactor hmodifier =>
    obtain ⟨countPos, sidesPos, factorPos⟩ := positive
    obtain ⟨countFit, sidesFit, factorFit⟩ := fit
    obtain ⟨scaled, hscaled, hfactorWord⟩ := hfactor.exists_scalingText factorFit
    let t : Throw :=
      ⟨UInt32.ofNat numbers.count, UInt32.ofNat numbers.sides, scaled, Int64.ofInt numbers.modifier⟩
    have ht : numbers.Of t :=
      ⟨toNat_ofNat_of_le countFit, toNat_ofNat_of_le sidesFit, hfactorWord,
        Int64.toInt_ofInt_of_le (by omega) (by omega)⟩
    rw [← ht.count] at hcount countPos
    rw [← ht.sides] at hsides sidesPos
    rw [← hfactorWord] at factorPos
    rw [← ht.modifier] at hmodifier small
    refine ⟨t, ht, ?_⟩
    rw [readNormal_append]
    exact readDice_eq_ite hcount hsides hscaled hmodifier (toNat_ne_zero_iff.1 countPos)
      (toNat_ne_zero_iff.1 sidesPos) (toNat_ne_zero_iff.1 factorPos) small

/-! ## Numbers that do not fit -/

theorem eq_invalid_of_readWord {text : List Char} {defect : ThrowDefect}
    (h : readWord text = .error defect) : defect = .invalid := by
  unfold readWord at h
  split at h
  · cases h
  · exact (Except.error.inj h).symm

theorem readWord_of_huge {text : List Char} {n : Nat} (h : Numeral text n)
    (huge : ¬n ≤ 4294967295) : readWord text = .error .invalid := by
  cases hread : readWord text with
  | error defect => rw [eq_invalid_of_readWord hread]
  | ok w =>
    have hvalue := (readWord_eq_ok_iff.1 hread).ofDigitChars
    rw [h.ofDigitChars] at hvalue
    exact absurd (hvalue ▸ Nat.le_of_lt_succ w.toNat_lt) huge

theorem readCount_of_huge {text : List Char} {n : Nat} (h : CountText text n)
    (huge : ¬n ≤ 4294967295) : readCount text = .error .invalid := by
  cases h with
  | absent => exact absurd (by decide) huge
  | written h =>
    rw [readCount_of_ne_nil h.ne_nil]
    exact bind_of_error (readWord_of_huge h huge) _

theorem readPositive_append {zero : ThrowDefect} {digits rest : List Char} {n : Nat}
    (h : Numeral digits n) (hends : EndsRun Char.isDigit rest) :
    readPositive zero (digits ++ rest) =
      readWord digits >>= fun w => if w = 0 then .error zero else .ok (w, rest) := by
  obtain ⟨hrun, hrest⟩ := cut_eq_iff.2 ⟨rfl, h.isDigit, hends⟩
  simp only [readPositive, spanDigits, hrun, hrest]

theorem readPositive_of_huge {zero : ThrowDefect} {digits rest : List Char} {n : Nat}
    (h : Numeral digits n) (hends : EndsRun Char.isDigit rest) (huge : ¬n ≤ 4294967295) :
    readPositive zero (digits ++ rest) = .error .invalid := by
  rw [readPositive_append h hends]
  exact bind_of_error (readWord_of_huge h huge) _

theorem readScaling_of_huge {text rest : List Char} {n : Nat} (h : FactorText text n)
    (hends : EndsRun Char.isDigit rest) (huge : ¬n ≤ 4294967295) :
    readScaling (text ++ rest) = .error .invalid := by
  cases h with
  | absent => exact absurd (by decide) huge
  | times h => exact bind_of_error (readPositive_of_huge h hends huge) _
  | bands h => exact bind_of_error (readPositive_of_huge h hends huge) _

/-- A count that fits is read, and the sides are next. -/
theorem exists_readNormal_append {count : List Char} {n : Nat} (h : CountText count n)
    (pos : n ≠ 0) (hn : n ≤ 4294967295) (behind : List Char) :
    ∃ w, readNormal (count ++ 'd' :: behind) = (do
      let (sides, rest) ← readSides behind
      let (scaling, rest) ← readScaling rest
      let modifier ← readModifier rest
      let t : Throw := { count := w, sides, scaling, modifier }
      if t.isWithinLimits then .ok t else .error .tooLarge) := by
  obtain ⟨w, hread, -⟩ := exists_readCount h pos hn
  refine ⟨w, ?_⟩
  rw [readNormal_append, readDice_append h.isDigit, bind_of_ok hread]

/-- Dice with a number that does not fit are refused before any limit is looked at. -/
theorem readNormal_of_huge {text : List Char} {numbers : DiceNumbers} (h : DiceText text numbers)
    (positive : numbers.Positive) (huge : ¬numbers.Fit) : readNormal text = .error .invalid := by
  cases h with
  | @parts count sides scaling modifier _ hcount hsides hfactor hmodifier =>
    obtain ⟨countPos, sidesPos, factorPos⟩ := positive
    have hmodifierEnds := hmodifier.endsRun (p := Char.isDigit) (by decide) (by decide)
    have hsidesEnds := hfactor.endsRun_append hmodifierEnds
    by_cases countFit : numbers.count ≤ 4294967295
    · obtain ⟨count, hread⟩ :=
        exists_readNormal_append hcount countPos countFit (sides ++ (scaling ++ modifier))
      rw [hread]
      by_cases sidesFit : numbers.sides ≤ 4294967295
      · obtain ⟨sides, hread, -⟩ :=
          exists_readPositive .zeroSides hsides hsidesEnds sidesPos sidesFit
        have factorHuge : ¬numbers.factor ≤ 4294967295 :=
          fun factorFit => huge ⟨countFit, sidesFit, factorFit⟩
        exact (bind_of_ok hread _).trans
          (bind_of_error (readScaling_of_huge hfactor hmodifierEnds factorHuge) _)
      · exact bind_of_error (readPositive_of_huge hsides hsidesEnds sidesFit) _
    · rw [readNormal_append, readDice_append hcount.isDigit]
      exact bind_of_error (readCount_of_huge hcount countFit) _

/-! ## Texts in the form of dice -/

theorem parse_of_readNormal {text : String} {body : List Char}
    (trimmed : Trimmed text.toList body) :
    parse text =
      (readNormal (body.map Char.toLower)).mapError fun defect => { defect, text } := by
  rw [parse, normalize, trim_eq_iff.2 trimmed]

/-- **Dice with numbers of any size.** They are read if they keep the limits, refused as too large
if they do not and still fit, and refused as no dice otherwise. -/
theorem parse_of_diceText {text : String} {body : List Char} {numbers : DiceNumbers}
    (trimmed : Trimmed text.toList body) (written : DiceText (body.map Char.toLower) numbers)
    (positive : numbers.Positive) (small : numbers.modifier.natAbs ≤ 4294967295) :
    (numbers.WithinLimits → ∃ t, numbers.Of t ∧ parse text = .ok t) ∧
      (¬numbers.WithinLimits → numbers.Fit → parse text = .error ⟨.tooLarge, text⟩) ∧
      (¬numbers.Fit → parse text = .error ⟨.invalid, text⟩) := by
  rw [parse_of_readNormal trimmed]
  refine ⟨fun within => ?_, fun beyond fit => ?_, fun huge => ?_⟩
  · obtain ⟨t, ht, hread⟩ := exists_readNormal written positive within.fit small
    rw [hread, if_pos (ht.isWithinLimits_iff.2 within)]
    exact ⟨t, ht, rfl⟩
  · obtain ⟨t, ht, hread⟩ := exists_readNormal written positive fit small
    rw [hread, if_neg fun within => beyond (ht.isWithinLimits_iff.1 within)]
    rfl
  · rw [readNormal_of_huge written positive huge]
    rfl

/-- A text with blanks and capitals whose dice are one too many. -/
theorem parse_of_diceText_horde :
    let numbers : DiceNumbers := ⟨101, 6, 2, -7⟩
    Trimmed " 101D6x2-7".toList "101D6x2-7".toList ∧
      DiceText ("101D6x2-7".toList.map Char.toLower) numbers ∧
      numbers.Positive ∧ numbers.modifier.natAbs ≤ 4294967295 ∧ ¬numbers.WithinLimits ∧
      numbers.Fit ∧ parse " 101D6x2-7" = .error ⟨.tooLarge, " 101D6x2-7"⟩ := by
  intro numbers
  have trimmed : Trimmed " 101D6x2-7".toList "101D6x2-7".toList := trim_eq_iff.1 (by rfl)
  have lowered : "101D6x2-7".toList.map Char.toLower =
      ['1', '0', '1'] ++ 'd' :: (['6'] ++ (['x', '2'] ++ ['-', '7'])) := by rfl
  have written : DiceText ("101D6x2-7".toList.map Char.toLower) numbers := by
    rw [lowered]
    exact .parts (.written (natural?_eq_some_iff.1 (by rfl))) (natural?_eq_some_iff.1 (by rfl))
      (.times (natural?_eq_some_iff.1 (by rfl))) (.minus (natural?_eq_some_iff.1 (by rfl)))
  have positive : numbers.Positive := by simp [numbers, DiceNumbers.Positive]
  have beyond : ¬numbers.WithinLimits := by simp [numbers, DiceNumbers.WithinLimits]
  have fit : numbers.Fit := by simp [numbers, DiceNumbers.Fit]
  have small : numbers.modifier.natAbs ≤ 4294967295 := by simp [numbers]
  obtain ⟨-, htooLarge, -⟩ := parse_of_diceText trimmed written positive small
  exact ⟨trimmed, written, positive, small, beyond, fit, htooLarge beyond fit⟩

/-- A count one beyond the words of 32 bits is not too large but no count, unlike the count before
it. -/
theorem parse_legion :
    let numbers : DiceNumbers := ⟨4294967296, 6, 1, 0⟩
    DiceText "4294967296d6".toList numbers ∧ numbers.Positive ∧ ¬numbers.WithinLimits ∧
      parse "4294967296d6" = .error ⟨.invalid, "4294967296d6"⟩ ∧
      parse "4294967295d6" = .error ⟨.tooLarge, "4294967295d6"⟩ := by
  intro numbers
  have written : DiceText ("4294967296".toList ++ 'd' :: (['6'] ++ ([] ++ []))) numbers :=
    .parts (.written (natural?_eq_some_iff.1 (by rfl))) (natural?_eq_some_iff.1 (by rfl))
      .absent .absent
  exact ⟨written, by simp [numbers, DiceNumbers.Positive],
    by simp [numbers, DiceNumbers.WithinLimits], by rfl, by rfl⟩

end Wilderness.Throw
