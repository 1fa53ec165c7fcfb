import Mathlib.Algebra.GroupWithZero.Nat
import Wilderness.Proofs.DiceTexts
import Wilderness.Proofs.Rendering

/-!
# Refused texts

A refused text is read from the left up to the first part that is wrong, and the error names that
part.  So dice without sides are told whatever stands behind the sides, a scaling by zero whatever
stands behind the scaling, and dice that are too large only if the whole text is in the form of
dice; everything else is no dice at all (`Throw.parse_eq_error_iff`).  This holds as long as every run
of digits in the text fits a word of 32 bits (`Text.RunsFit`).
-/

namespace Wilderness

namespace Text

/-! ## Runs that fit -/

/-- Every run of digits that goes on neither to the left nor to the right is a number of 32
bits. -/
def RunsFit (text : List Char) : Prop :=
  ∀ before run after n, text = before ++ (run ++ after) → Numeral run n →
    EndsRun Char.isDigit before.reverse → EndsRun Char.isDigit after → n ≤ 4294967295

theorem EndsRun.append {p : Char → Bool} {text rest : List Char} (htext : EndsRun p text)
    (hrest : EndsRun p rest) : EndsRun p (text ++ rest) := by
  cases text with
  | nil => exact hrest
  | cons c text => exact endsRun_cons (htext c rfl)

theorem EndsRun.append_of_ne_nil {p : Char → Bool} {text rest : List Char} (h : EndsRun p text)
    (hne : text ≠ []) : EndsRun p (text ++ rest) := by
  cases text with
  | nil => exact absurd rfl hne
  | cons c text => exact endsRun_cons (h c rfl)

theorem RunsFit.front {run after : List Char} {n : Nat} (h : RunsFit (run ++ after))
    (hrun : Numeral run n) (hafter : EndsRun Char.isDigit after) : n ≤ 4294967295 :=
  h [] run after n rfl hrun endsRun_nil hafter

theorem RunsFit.drop {before text : List Char} (h : RunsFit (before ++ text))
    (htext : EndsRun Char.isDigit text) : RunsFit text := by
  rintro first run last n rfl hrun hfirst hlast
  refine h (before ++ first) run last n (by simp) hrun ?_ hlast
  rw [List.reverse_append]
  by_cases hnil : first = []
  · -- the text would begin with a digit
    subst hnil
    obtain ⟨c, run, rfl⟩ := List.exists_cons_of_ne_nil hrun.ne_nil
    exact absurd (hrun.isDigit c List.mem_cons_self) (by simp [htext c rfl])
  · exact hfirst.append_of_ne_nil (List.reverse_ne_nil_iff.2 hnil)

theorem RunsFit.tail {text : List Char} {c : Char} (h : RunsFit (c :: text))
    (hc : c.isDigit = false) : RunsFit text := by
  rintro before run after n rfl hrun hbefore hafter
  refine h (c :: before) run after n rfl hrun ?_ hafter
  rw [List.reverse_cons]
  exact hbefore.append (endsRun_cons hc)

theorem RunsFit.behind {before text : List Char} {c : Char} (h : RunsFit (before ++ c :: text))
    (hc : c.isDigit = false) : RunsFit text :=
  (h.drop (endsRun_cons hc)).tail hc

theorem RunsFit.whole {run : List Char} {n : Nat} (h : RunsFit run) (hrun : Numeral run n) :
    n ≤ 4294967295 :=
  h [] run [] n (by simp) hrun endsRun_nil endsRun_nil

theorem digit_lt_ten {c : Char} (h : c.isDigit = true) : c.toNat - '0'.toNat < 10 := by
  have hnine : c.toNat ≤ 57 := (Char.isDigit_iff_toNat.1 h).2
  have hzero : '0'.toNat = 48 := rfl
  omega

theorem Numeral.lt_pow {text : List Char} {n : Nat} (h : Numeral text n) :
    n < 10 ^ text.length := by
  induction h with
  | digit hc => exact digit_lt_ten hc
  | snoc _ hc ih =>
    have hdigit := digit_lt_ten hc
    rw [List.length_append, List.length_singleton, pow_succ]
    omega

theorem runsFit_of_length_le {text : List Char} (h : text.length ≤ 9) : RunsFit text := by
  rintro before run after n rfl hrun - -
  have hlength : run.length ≤ 9 := by
    simp only [List.length_append] at h
    omega
  have hpow := hrun.lt_pow.trans_le (Nat.pow_le_pow_right (by decide) hlength)
  omega

theorem isDigit_of_isDigit_toLower {c : Char} (h : c.toLower.isDigit = true) :
    c.isDigit = true := by
  unfold Char.toLower at h
  split at h
  · next hupper =>
    -- the lower case letters come behind the digits
    obtain ⟨-, hnine⟩ := Char.isDigit_iff_toNat.1 h
    have hA : 65 ≤ c.val.toNat := UInt32.le_iff_toNat_le.1 hupper.1
    have hZ : c.val.toNat ≤ 90 := UInt32.le_iff_toNat_le.1 hupper.2
    have hlower : (c.val.toNat + 32) % 4294967296 ≤ 57 := hnine
    omega
  · exact h

theorem EndsRun.of_map_toLower {text : List Char}
    (h : EndsRun Char.isDigit (text.map Char.toLower)) : EndsRun Char.isDigit text := by
  intro c hc
  cases hdigit : c.isDigit with
  | false => rfl
  | true =>
    have hlower := h c.toLower (by rw [List.head?_map, Option.mem_def.1 hc]; rfl)
    rw [(isNormal_of_isDigit hdigit).2, hdigit] at hlower
    cases hlower

theorem endsRun_of_isBlank {text : List Char} (h : ∀ c ∈ text, isBlank c = true) :
    EndsRun Char.isDigit text := by
  intro c hc
  cases hdigit : c.isDigit with
  | false => rfl
  | true =>
    have hblank := h c (List.mem_of_mem_head? hc)
    rw [(isNormal_of_isDigit hdigit).1] at hblank
    cases hblank

theorem map_toLower_eq_self {text : List Char}
    (h : ∀ c ∈ text.map Char.toLower, c.isDigit = true) : text.map Char.toLower = text := by
  refine (List.map_congr_left fun c hc => ?_).trans text.map_id
  exact (isNormal_of_isDigit (isDigit_of_isDigit_toLower (h _ (List.mem_map_of_mem hc)))).2

/-- Blanks and the case of letters make no difference to the runs of digits. -/
theorem RunsFit.lowered {text body : List Char} (h : RunsFit text) (trimmed : Trimmed text body) :
    RunsFit (body.map Char.toLower) := by
  obtain ⟨blankBefore, blankAfter, rfl, hbefore, hafter⟩ := trimmed.between
  intro before run after n hlowered hrun hends hends'
  obtain ⟨before, rest, rfl, rfl, hrest⟩ := List.map_eq_append_iff.1 hlowered
  obtain ⟨run, after, rfl, rfl, rfl⟩ := List.map_eq_append_iff.1 hrest
  rw [map_toLower_eq_self hrun.isDigit] at hrun
  rw [← List.map_reverse] at hends
  refine h (blankBefore ++ before) run (after ++ blankAfter) n (by simp) hrun ?_ ?_
  · rw [List.reverse_append]
    refine hends.of_map_toLower.append (endsRun_of_isBlank fun c hc => ?_)
    exact hbefore c (List.mem_reverse.1 hc)
  · exact hends'.of_map_toLower.append (endsRun_of_isBlank hafter)

end Text

namespace Throw

open Text

/-! ## What is wrong with a text -/

/-- At the front of the text stand dice without sides. -/
inductive ZeroSides : List Char → Prop
  | front {count sides rest : List Char} {n : Nat} : CountText count n → n ≠ 0 →
      Numeral sides 0 → EndsRun Char.isDigit rest → ZeroSides (count ++ 'd' :: (sides ++ rest))

/-- At the front of the text stand dice that are scaled by zero. -/
inductive ZeroScale : List Char → Prop
  | front {count sides scaling rest : List Char} {n m : Nat} : CountText count n → n ≠ 0 →
      Numeral sides m → m ≠ 0 → FactorText scaling 0 → EndsRun Char.isDigit rest →
      ZeroScale (count ++ 'd' :: (sides ++ (scaling ++ rest)))

/-- The text is in the form of dice and goes beyond the limits. -/
def TooLarge (text : List Char) : Prop :=
  ∃ numbers, DiceText text numbers ∧ numbers.Positive ∧ ¬numbers.WithinLimits

/-- What a text that is refused for a defect is like. -/
def Complaint (text : List Char) : ThrowDefect → Prop
  | .invalid => True
  | .zeroSides => ZeroSides text
  | .zeroScale => ZeroScale text
  | .tooLarge => TooLarge text

/-! ## Every refusal has its complaint -/

theorem eq_invalid_of_readCount {text : List Char} {defect : ThrowDefect}
    (h : readCount text = .error defect) : defect = .invalid := by
  by_cases hnil : text = []
  · subst hnil
    cases h
  · rw [readCount_of_ne_nil hnil] at h
    simp only [bind_eq_error_iff, guard_eq_error_iff] at h
    rcases h with h | ⟨_, -, -, rfl⟩
    · exact eq_invalid_of_readWord h
    · rfl

theorem eq_invalid_of_readModifier {text : List Char} {defect : ThrowDefect}
    (h : readModifier text = .error defect) : defect = .invalid := by
  unfold readModifier at h
  split at h
  · cases h
  · rcases bind_eq_error_iff.1 h with h | ⟨w, -, h⟩
    · exact eq_invalid_of_readWord h
    · cases h
  · rcases bind_eq_error_iff.1 h with h | ⟨w, -, h⟩
    · exact eq_invalid_of_readWord h
    · cases h
  · exact (Except.error.inj h).symm

theorem readPositive_error {zero defect : ThrowDefect} {text : List Char}
    (h : readPositive zero text = .error defect) :
    defect = .invalid ∨ defect = zero ∧ ∃ digits rest, text = digits ++ rest ∧
      Numeral digits 0 ∧ EndsRun Char.isDigit rest := by
  simp only [readPositive, spanDigits, bind_eq_error_iff, guard_eq_error_iff] at h
  rcases h with h | ⟨w, hw, rfl, rfl⟩
  · exact .inl (eq_invalid_of_readWord h)
  · obtain ⟨digits, htext, hdigits, hends⟩ := readWord_cut_iff.1 ⟨hw, rfl⟩
    exact .inr ⟨rfl, digits, _, htext, hdigits, hends⟩

theorem readScaling_error {text : List Char} {defect : ThrowDefect}
    (h : readScaling text = .error defect) :
    defect = .invalid ∨ defect = .zeroScale ∧ ∃ scaling rest, text = scaling ++ rest ∧
      FactorText scaling 0 ∧ EndsRun Char.isDigit rest := by
  unfold readScaling at h
  split at h
  · rcases bind_eq_error_iff.1 h with h | ⟨_, -, h⟩
    · rcases readPositive_error h with rfl | ⟨rfl, digits, rest, rfl, hdigits, hends⟩
      · exact .inl rfl
      · exact .inr ⟨rfl, 'x' :: digits, rest, rfl, .times hdigits, hends⟩
    · cases h
  · rcases bind_eq_error_iff.1 h with h | ⟨_, -, h⟩
    · rcases readPositive_error h with rfl | ⟨rfl, digits, rest, rfl, hdigits, hends⟩
      · exact .inl rfl
      · exact .inr ⟨rfl, '/' :: digits, rest, rfl, .bands hdigits, hends⟩
    · cases h
  · cases h

theorem complaint_of_readDice {text : List Char} {defect : ThrowDefect}
    (h : readDice text = .error defect) : Complaint text defect := by
  unfold readDice at h
  split at h
  · obtain rfl := Except.error.inj h
    exact trivial
  · next behind hbehind =>
    rw [eq_append_of_dropWhile hbehind]
    -- each part of the reader stops here or leaves the text behind it to the next one
    rw [bind_eq_error_iff] at h
    rcases h with h | ⟨count, hcount, h⟩
    · rw [eq_invalid_of_readCount h]
      exact trivial
    obtain ⟨hcount, hcountPos⟩ := readCount_eq_ok_iff.1 hcount
    have countPos := toNat_ne_zero_iff.2 hcountPos
    rw [bind_eq_error_iff] at h
    rcases h with h | ⟨⟨sides, rest⟩, hsides, h⟩
    · rcases readPositive_error h with rfl | ⟨rfl, digits, rest, rfl, hdigits, hends⟩
      · exact trivial
      · exact ZeroSides.front hcount countPos hdigits hends
    obtain ⟨⟨digits, rfl, hdigits, -⟩, hsidesPos⟩ := readPositive_eq_ok_iff.1 hsides
    have sidesPos := toNat_ne_zero_iff.2 hsidesPos
    rw [bind_eq_error_iff] at h
    rcases h with h | ⟨⟨scaling, last⟩, hscaling, h⟩
    · rcases readScaling_error h with rfl | ⟨rfl, written, rest, rfl, hwritten, hends⟩
      · exact trivial
      · exact ZeroScale.front hcount countPos hdigits sidesPos hwritten hends
    obtain ⟨written, rfl, hwritten, hfactorPos⟩ := scalingText_of_readScaling hscaling
    have factorPos := toNat_ne_zero_iff.2 hfactorPos
    rw [bind_eq_error_iff] at h
    rcases h with h | ⟨modifier, hmodifier, h⟩
    · rw [eq_invalid_of_readModifier h]
      exact trivial
    obtain ⟨hmodifier, -⟩ := readModifier_eq_ok_iff.1 hmodifier
    obtain ⟨beyond, rfl⟩ := check_eq_error_iff.1 h
    rw [isWithinLimits_iff] at beyond
    let numbers : DiceNumbers :=
      ⟨count.toNat, sides.toNat, scaling.factor.toNat, modifier.toInt⟩
    exact ⟨numbers, .parts hcount hdigits hwritten.factorText hmodifier,
      ⟨countPos, sidesPos, factorPos⟩, beyond⟩

/-! ## Every complaint is heard -/

theorem CountText.fits {count behind : List Char} {n : Nat} (h : CountText count n)
    (fits : RunsFit (count ++ 'd' :: behind)) : n ≤ 4294967295 := by
  cases h with
  | absent => decide
  | written h => exact fits.front h (endsRun_cons (by decide))

theorem FactorText.fits {scaling rest : List Char} {n : Nat} (h : FactorText scaling n)
    (hends : EndsRun Char.isDigit rest) (fits : RunsFit (scaling ++ rest)) : n ≤ 4294967295 := by
  cases h with
  | absent => decide
  | times h => exact (fits.tail (by decide)).front h hends
  | bands h => exact (fits.tail (by decide)).front h hends

theorem ModifierText.fits {modifier : List Char} {value : Int} (h : ModifierText modifier value)
    (fits : RunsFit modifier) : value.natAbs ≤ 4294967295 := by
  cases h with
  | absent => decide
  | plus h =>
    have hn := (fits.tail (by decide)).whole h
    omega
  | minus h =>
    have hn := (fits.tail (by decide)).whole h
    omega

theorem DiceText.fits {text : List Char} {numbers : DiceNumbers} (h : DiceText text numbers)
    (fits : RunsFit text) : numbers.Fit ∧ numbers.modifier.natAbs ≤ 4294967295 := by
  cases h with
  | parts hcount hsides hfactor hmodifier =>
    have hends := hmodifier.endsRun (p := Char.isDigit) (by decide) (by decide)
    have hsidesEnds := hfactor.endsRun_append hends
    have behind : RunsFit (_ ++ (_ ++ _)) := fits.behind (by decide)
    have scaled := behind.drop hsidesEnds
    exact ⟨⟨hcount.fits fits, behind.front hsides hsidesEnds, hfactor.fits hends scaled⟩,
      hmodifier.fits (scaled.drop hends)⟩

theorem readPositive_of_zero (zero : ThrowDefect) {digits rest : List Char}
    (h : Numeral digits 0) (hends : EndsRun Char.isDigit rest) :
    readPositive zero (digits ++ rest) = .error zero := by
  rw [readPositive_append h hends]
  obtain ⟨w, hread, hw⟩ := exists_readWord h (by decide)
  obtain rfl : w = 0 := UInt32.toNat_inj.1 hw
  exact bind_of_ok hread _

theorem readScaling_of_zero {scaling rest : List Char} (h : FactorText scaling 0)
    (hends : EndsRun Char.isDigit rest) : readScaling (scaling ++ rest) = .error .zeroScale := by
  cases h with
  | times h => exact bind_of_error (readPositive_of_zero .zeroScale h hends) _
  | bands h => exact bind_of_error (readPositive_of_zero .zeroScale h hends) _

theorem ZeroSides.readNormal {text : List Char} (h : ZeroSides text) (fits : RunsFit text) :
    readNormal text = .error .zeroSides := by
  obtain ⟨hcount, pos, hsides, hends⟩ := h
  obtain ⟨w, hread⟩ := exists_readNormal_append hcount pos (hcount.fits fits) _
  rw [hread]
  exact bind_of_error (readPositive_of_zero .zeroSides hsides hends) _

theorem ZeroScale.readNormal {text : List Char} (h : ZeroScale text) (fits : RunsFit text) :
    readNormal text = .error .zeroScale := by
  obtain ⟨hcount, pos, hsides, sidesPos, hscaling, hends⟩ := h
  obtain ⟨w, hread⟩ := exists_readNormal_append hcount pos (hcount.fits fits) _
  have hsidesEnds := hscaling.endsRun_append hends
  have sidesFit := (fits.behind (by decide)).front hsides hsidesEnds
  obtain ⟨sides, hsidesRead, -⟩ :=
    exists_readPositive .zeroSides hsides hsidesEnds sidesPos sidesFit
  rw [hread]
  exact (bind_of_ok hsidesRead _).trans (bind_of_error (readScaling_of_zero hscaling hends) _)

theorem TooLarge.readNormal {text : List Char} (h : TooLarge text) (fits : RunsFit text) :
    readNormal text = .error .tooLarge := by
  obtain ⟨numbers, written, positive, beyond⟩ := h
  obtain ⟨fit, small⟩ := written.fits fits
  obtain ⟨t, ht, hread⟩ := exists_readNormal written positive fit small
  rw [hread, if_neg fun within => beyond (ht.isWithinLimits_iff.1 within)]

/-! ## Refusals -/

theorem complaint_of_readNormal {text : List Char} {defect : ThrowDefect}
    (h : readNormal text = .error defect) : Complaint text defect := by
  unfold readNormal at h
  split at h
  · cases h
  · exact complaint_of_readDice h

theorem Complaint.readNormal {text : List Char} {defect : ThrowDefect}
    (h : Complaint text defect) (fits : RunsFit text) (hdefect : defect ≠ .invalid) :
    readNormal text = .error defect := by
  cases defect with
  | invalid => exact absurd rfl hdefect
  | zeroSides => exact ZeroSides.readNormal h fits
  | zeroScale => exact ZeroScale.readNormal h fits
  | tooLarge => exact TooLarge.readNormal h fits

theorem readNormal_eq_error_iff {text : List Char} {defect : ThrowDefect} (fits : RunsFit text)
    (hdefect : defect ≠ .invalid) : readNormal text = .error defect ↔ Complaint text defect := by
  constructor
  · exact complaint_of_readNormal
  · intro hcomplaint
    exact hcomplaint.readNormal fits hdefect

theorem parse_eq_error_iff_readNormal {text : String} {body : List Char} {e : ThrowError}
    (trimmed : Trimmed text.toList body) :
    parse text = .error e ↔
      readNormal (body.map Char.toLower) = .error e.defect ∧ e.text = text := by
  rw [parse_of_readNormal trimmed]
  cases readNormal (body.map Char.toLower) with
  | ok t => simp [Except.mapError]
  | error defect =>
    simp only [Except.mapError, Except.error.injEq]
    constructor
    · rintro rfl
      exact ⟨rfl, rfl⟩
    · rintro ⟨rfl, rfl⟩
      rfl

/-- **The kinds of refusal.** A text that is refused is given back as it was, and the first part of
it that is wrong decides what is said about it. -/
theorem parse_eq_error_iff {text : String} {body : List Char} (fits : RunsFit text.toList)
    (trimmed : Trimmed text.toList body) :
    (∀ e, parse text = .error e → e.text = text) ∧
      (parse text = .error ⟨.zeroSides, text⟩ ↔ ZeroSides (body.map Char.toLower)) ∧
      (parse text = .error ⟨.zeroScale, text⟩ ↔ ZeroScale (body.map Char.toLower)) ∧
      (parse text = .error ⟨.tooLarge, text⟩ ↔ TooLarge (body.map Char.toLower)) ∧
      (parse text = .error ⟨.invalid, text⟩ ↔ (∀ t, parse text ≠ .ok t) ∧
        ¬ZeroSides (body.map Char.toLower) ∧ ¬ZeroScale (body.map Char.toLower) ∧
        ¬TooLarge (body.map Char.toLower)) := by
  have told {defect : ThrowDefect} (hdefect : defect ≠ .invalid) :
      parse text = .error ⟨defect, text⟩ ↔ Complaint (body.map Char.toLower) defect := by
    rw [parse_eq_error_iff_readNormal trimmed, and_iff_left rfl]
    exact readNormal_eq_error_iff (fits.lowered trimmed) hdefect
  have hsides : _ ↔ ZeroSides (body.map Char.toLower) := @told .zeroSides (by simp)
  have hscale : _ ↔ ZeroScale (body.map Char.toLower) := @told .zeroScale (by simp)
  have hlarge : _ ↔ TooLarge (body.map Char.toLower) := @told .tooLarge (by simp)
  have given : ∀ e, parse text = .error e → e.text = text :=
    fun e he => ((parse_eq_error_iff_readNormal trimmed).1 he).2
  refine ⟨given, hsides, hscale, hlarge, ?_⟩
  rw [← hsides, ← hscale, ← hlarge]
  cases hparse : parse text with
  | ok t => simp
  | error e =>
    obtain ⟨defect, other⟩ := e
    obtain rfl : other = text := given _ hparse
    cases defect with
    | invalid => simp
    | zeroSides => simp
    | zeroScale => simp
    | tooLarge => simp

/-- A scaling by zero is told although nothing is known of the text behind it. -/
theorem parse_eq_error_iff_tail :
    RunsFit "\t2D6/0+!".toList ∧ Trimmed "\t2D6/0+!".toList "2D6/0+!".toList ∧
      parse "\t2D6/0+!" = .error ⟨.zeroScale, "\t2D6/0+!"⟩ ∧
      ZeroScale ("2D6/0+!".toList.map Char.toLower) := by
  have fits : RunsFit "\t2D6/0+!".toList := runsFit_of_length_le (by decide)
  have trimmed : Trimmed "\t2D6/0+!".toList "2D6/0+!".toList := trim_eq_iff.1 (by rfl)
  have refused : parse "\t2D6/0+!" = .error ⟨.zeroScale, "\t2D6/0+!"⟩ := by rfl
  obtain ⟨-, -, hzeroScale, -⟩ := parse_eq_error_iff fits trimmed
  exact ⟨fits, trimmed, refused, hzeroScale.1 refused⟩

end Throw

end Wilderness
