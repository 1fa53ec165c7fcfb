import Wilderness.Dice.Throw.Written
import Wilderness.Proofs.Numerals
import Wilderness.Proofs.Results

/-!
# Written throws

The grammar of the written form, told part by part (`Throw.Denotes`), beside the reader, which
splits a text at its first `d` and at the ends of its runs of digits.  Each part of the reader
takes what the grammar says, so the reader as a whole accepts the texts of the grammar and no
others (`Throw.parse_eq_ok_iff`).
-/

namespace Wilderness

namespace Throw

open Text

/-! ## The grammar -/

/-- A number of dice: nothing is written for a single one. -/
inductive CountText : List Char → Nat → Prop
  | absent : CountText [] 1
  | written {text : List Char} {n : Nat} : Numeral text n → CountText text n

/-- A scaling, or nothing if the sum stays as it is. -/
inductive ScalingText : List Char → Scaling → Prop
  | absent : ScalingText [] (.times 1)
  | times {text : List Char} {factor : UInt32} : Numeral text factor.toNat →
      ScalingText ('x' :: text) (.times factor)
  | bands {text : List Char} {width : UInt32} : Numeral text width.toNat →
      ScalingText ('/' :: text) (.bands width)

/-- A modifier, or nothing if there is none. -/
inductive ModifierText : List Char → Int → Prop
  | absent : ModifierText [] 0
  | plus {text : List Char} {n : Nat} : Numeral text n → ModifierText ('+' :: text) n
  | minus {text : List Char} {n : Nat} : Numeral text n → ModifierText ('-' :: text) (-n)

/-- The numbers that the written form of dice has room for. -/
structure Writable (t : Throw) : Prop where
  count : 1 ≤ t.count.toNat ∧ t.count.toNat ≤ 100
  sides : 1 ≤ t.sides.toNat ∧ t.sides.toNat ≤ 1000
  factor : 1 ≤ t.scaling.factor.toNat ∧ t.scaling.factor.toNat ≤ 1000
  modifier : t.modifier.toInt.natAbs ≤ 4294967295

/-- The texts in lower case and without blanks that describe a throw. -/
inductive Denotes : List Char → Throw → Prop
  | constant {text : List Char} {value : Int64} : SignedNumeral text value.toInt →
      Denotes text (.constant value)
  | dice {count sides scaling modifier : List Char} {t : Throw} :
      CountText count t.count.toNat → Numeral sides t.sides.toNat →
      ScalingText scaling t.scaling → ModifierText modifier t.modifier.toInt → t.Writable →
      Denotes (count ++ 'd' :: (sides ++ (scaling ++ modifier))) t

/-! ## The ends of the parts -/

theorem CountText.isDigit {text : List Char} {n : Nat} (h : CountText text n) :
    ∀ c ∈ text, c.isDigit = true := by
  cases h with
  | absent => simp
  | written h => exact h.isDigit

theorem ModifierText.endsRun {p : Char → Bool} {text : List Char} {value : Int}
    (h : ModifierText text value) (hplus : p '+' = false) (hminus : p '-' = false) :
    EndsRun p text := by
  cases h with
  | absent => exact endsRun_nil
  | plus => exact endsRun_cons hplus
  | minus => exact endsRun_cons hminus

theorem ScalingText.endsRun_append {text rest : List Char} {scaling : Scaling}
    (h : ScalingText text scaling) (hrest : EndsRun Char.isDigit rest) :
    EndsRun Char.isDigit (text ++ rest) := by
  cases h with
  | absent => exact hrest
  | times => exact endsRun_cons (by decide)
  | bands => exact endsRun_cons (by decide)

/-! ## The parts of the reader -/

theorem readWord_eq_ok_iff {text : List Char} {w : UInt32} :
    readWord text = .ok w ↔ Numeral text w.toNat := by
  rw [← word?_eq_some_iff]
  unfold readWord
  cases word? text with
  | none => simp
  | some n => simp

theorem toNat_ofNat_of_le {n : Nat} (h : n ≤ 4294967295) : (UInt32.ofNat n).toNat = n :=
  UInt32.toNat_ofNat_of_lt' (Nat.lt_succ_of_le h)

theorem exists_readWord {text : List Char} {n : Nat} (h : Numeral text n)
    (hn : n ≤ 4294967295) : ∃ w, readWord text = .ok w ∧ w.toNat = n := by
  have hword := toNat_ofNat_of_le hn
  exact ⟨UInt32.ofNat n, readWord_eq_ok_iff.2 (by rwa [hword]), hword⟩

theorem readCount_of_ne_nil {text : List Char} (h : text ≠ []) :
    readCount text =
      readWord text >>= fun count => if count = 0 then .error .invalid else .ok count := by
  cases text with
  | nil => exact absurd rfl h
  | cons c text => rfl

theorem readCount_eq_ok_iff {text : List Char} {w : UInt32} :
    readCount text = .ok w ↔ CountText text w.toNat ∧ w ≠ 0 := by
  constructor
  · intro h
    by_cases hnil : text = []
    · subst hnil
      obtain rfl : 1 = w := Except.ok.inj h
      exact ⟨.absent, by decide⟩
    · rw [readCount_of_ne_nil hnil] at h
      obtain ⟨n, hn, h⟩ := bind_eq_ok_iff.1 h
      obtain ⟨hpos, rfl⟩ := guard_eq_ok_iff.1 h
      exact ⟨.written (readWord_eq_ok_iff.1 hn), hpos⟩
  · rintro ⟨htext, hpos⟩
    generalize hn : w.toNat = n at htext
    cases htext with
    | absent =>
      obtain rfl : w = 1 := UInt32.toNat_inj.1 hn
      rfl
    | written h =>
      rw [readCount_of_ne_nil h.ne_nil]
      exact bind_eq_ok_iff.2 ⟨w, readWord_eq_ok_iff.2 (hn ▸ h), guard_eq_ok_iff.2 ⟨hpos, rfl⟩⟩

/-- A numeral at the front of a text, cut off where its digits end. -/
theorem readWord_cut_iff {text rest : List Char} {w : UInt32} :
    (readWord (text.takeWhile Char.isDigit) = .ok w ∧ text.dropWhile Char.isDigit = rest) ↔
      ∃ digits, text = digits ++ rest ∧ Numeral digits w.toNat ∧ EndsRun Char.isDigit rest := by
  constructor
  · rintro ⟨hword, hrest⟩
    obtain ⟨htext, -, hends⟩ := cut_eq_iff.1 ⟨rfl, hrest⟩
    exact ⟨_, htext, readWord_eq_ok_iff.1 hword, hends⟩
  · rintro ⟨digits, htext, hdigits, hends⟩
    obtain ⟨htake, hdrop⟩ := cut_eq_iff.2 ⟨htext, hdigits.isDigit, hends⟩
    exact ⟨htake ▸ readWord_eq_ok_iff.2 hdigits, hdrop⟩

theorem readPositive_eq_ok_iff {zero : ThrowDefect} {text rest : List Char} {w : UInt32} :
    readPositive zero text = .ok (w, rest) ↔
      (∃ digits, text = digits ++ rest ∧ Numeral digits w.toNat ∧ EndsRun Char.isDigit rest) ∧
        w ≠ 0 := by
  simp only [readPositive, spanDigits, bind_eq_ok_iff, guard_eq_ok_iff, ← readWord_cut_iff,
    Prod.mk.injEq]
  constructor
  · rintro ⟨_, hword, hpos, rfl, hrest⟩
    exact ⟨⟨hword, hrest⟩, hpos⟩
  · rintro ⟨⟨hword, hrest⟩, hpos⟩
    exact ⟨w, hword, hpos, rfl, hrest⟩

/-! A scaling is read up to where its number ends, or nothing is read at all. -/

theorem scalingText_of_readScaling {text rest : List Char} {scaling : Scaling}
    (h : readScaling text = .ok (scaling, rest)) :
    ∃ written, text = written ++ rest ∧ ScalingText written scaling ∧ scaling.factor ≠ 0 := by
  unfold readScaling at h
  split at h
  · obtain ⟨⟨w, behind⟩, hw, h⟩ := bind_eq_ok_iff.1 h
    obtain ⟨rfl, rfl⟩ := Prod.mk.inj (Except.ok.inj h)
    obtain ⟨⟨digits, rfl, hdigits, -⟩, hpos⟩ := readPositive_eq_ok_iff.1 hw
    exact ⟨'x' :: digits, rfl, .times hdigits, hpos⟩
  · obtain ⟨⟨w, behind⟩, hw, h⟩ := bind_eq_ok_iff.1 h
    obtain ⟨rfl, rfl⟩ := Prod.mk.inj (Except.ok.inj h)
    obtain ⟨⟨digits, rfl, hdigits, -⟩, hpos⟩ := readPositive_eq_ok_iff.1 hw
    exact ⟨'/' :: digits, rfl, .bands hdigits, hpos⟩
  · obtain ⟨rfl, rfl⟩ := Prod.mk.inj (Except.ok.inj h)
    exact ⟨[], rfl, .absent, by decide⟩

theorem readScaling_of_scalingText {written rest : List Char} {scaling : Scaling}
    (h : ScalingText written scaling) (hpos : scaling.factor ≠ 0)
    (hdigits : EndsRun Char.isDigit rest) (hmarks : EndsRun (fun c => c == 'x' || c == '/') rest) :
    readScaling (written ++ rest) = .ok (scaling, rest) := by
  cases h with
  | absent =>
    unfold readScaling
    split
    · next hrest =>
      rw [List.nil_append] at hrest
      rw [hrest] at hmarks
      cases hmarks 'x' rfl
    · next hrest =>
      rw [List.nil_append] at hrest
      rw [hrest] at hmarks
      cases hmarks '/' rfl
    · rfl
  | times h =>
    exact bind_eq_ok_iff.2 ⟨_, readPositive_eq_ok_iff.2 ⟨⟨_, rfl, h, hdigits⟩, hpos⟩, rfl⟩
  | bands h =>
    exact bind_eq_ok_iff.2 ⟨_, readPositive_eq_ok_iff.2 ⟨⟨_, rfl, h, hdigits⟩, hpos⟩, rfl⟩

theorem readModifier_eq_ok_iff {text : List Char} {modifier : Int64} :
    readModifier text = .ok modifier ↔
      ModifierText text modifier.toInt ∧ modifier.toInt.natAbs ≤ 4294967295 := by
  constructor
  · intro h
    unfold readModifier at h
    split at h
    · obtain rfl : 0 = modifier := Except.ok.inj h
      exact ⟨.absent, by decide⟩
    · obtain ⟨w, hw, h⟩ := bind_eq_ok_iff.1 h
      have hlt := w.toNat_lt
      have hvalue : modifier.toInt = (w.toNat : Int) := by
        rw [← Except.ok.inj h, Int64.toInt_ofInt_of_le (by omega) (by omega)]
      rw [hvalue]
      exact ⟨.plus (readWord_eq_ok_iff.1 hw), by omega⟩
    · obtain ⟨w, hw, h⟩ := bind_eq_ok_iff.1 h
      have hlt := w.toNat_lt
      have hvalue : modifier.toInt = -(w.toNat : Int) := by
        rw [← Except.ok.inj h, Int64.toInt_ofInt_of_le (by omega) (by omega)]
      rw [hvalue]
      exact ⟨.minus (readWord_eq_ok_iff.1 hw), by omega⟩
    · cases h
  · rintro ⟨htext, hbound⟩
    rw [← modifier.ofInt_toInt]
    generalize modifier.toInt = value at htext hbound
    cases htext with
    | absent => rfl
    | plus h =>
      obtain ⟨w, hw, rfl⟩ := exists_readWord h (by omega)
      exact bind_eq_ok_iff.2 ⟨w, hw, rfl⟩
    | minus h =>
      obtain ⟨w, hw, rfl⟩ := exists_readWord h (by omega)
      exact bind_eq_ok_iff.2 ⟨w, hw, rfl⟩

/-! ## The reader -/

theorem one_le_toNat_iff {w : UInt32} : 1 ≤ w.toNat ↔ w ≠ 0 := by
  rw [Nat.one_le_iff_ne_zero, ne_eq, ne_eq, ← UInt32.toNat_inj]
  rfl

theorem isWithinLimits_iff {t : Throw} :
    t.isWithinLimits = true ↔
      t.count.toNat ≤ 100 ∧ t.sides.toNat ≤ 1000 ∧ t.scaling.factor.toNat ≤ 1000 := by
  simp only [isWithinLimits, Bool.and_eq_true, decide_eq_true_eq, UInt32.le_iff_toNat_le, and_assoc]
  rfl

/-- A text with a `d` in it is cut at the first one. -/
theorem eq_append_of_dropWhile {text behind : List Char} {c : Char}
    (h : text.dropWhile (· != 'd') = c :: behind) :
    text = text.takeWhile (· != 'd') ++ 'd' :: behind := by
  obtain ⟨htext, -, hends⟩ := cut_eq_iff.1 ⟨rfl, h⟩
  obtain rfl : c = 'd' := by simpa using hends c rfl
  exact htext

theorem denotes_of_readDice {text : List Char} {t : Throw} (h : readDice text = .ok t) :
    Denotes text t := by
  unfold readDice at h
  split at h
  · cases h
  · next behind hbehind =>
    obtain ⟨count, hcount, h⟩ := bind_eq_ok_iff.1 h
    obtain ⟨⟨sides, rest⟩, hsides, h⟩ := bind_eq_ok_iff.1 h
    obtain ⟨⟨scaling, last⟩, hscaling, h⟩ := bind_eq_ok_iff.1 h
    obtain ⟨modifier, hmodifier, h⟩ := bind_eq_ok_iff.1 h
    obtain ⟨hlimits, rfl⟩ := check_eq_ok_iff.1 h
    obtain ⟨hcount, hcountPos⟩ := readCount_eq_ok_iff.1 hcount
    obtain ⟨⟨digits, rfl, hdigits, -⟩, hsidesPos⟩ := readPositive_eq_ok_iff.1 hsides
    obtain ⟨written, rfl, hwritten, hfactorPos⟩ := scalingText_of_readScaling hscaling
    obtain ⟨hmodifier, hbound⟩ := readModifier_eq_ok_iff.1 hmodifier
    obtain ⟨hcountLe, hsidesLe, hfactorLe⟩ := isWithinLimits_iff.1 hlimits
    rw [eq_append_of_dropWhile hbehind]
    exact .dice hcount hdigits hwritten hmodifier
      ⟨⟨one_le_toNat_iff.2 hcountPos, hcountLe⟩, ⟨one_le_toNat_iff.2 hsidesPos, hsidesLe⟩,
        ⟨one_le_toNat_iff.2 hfactorPos, hfactorLe⟩, hbound⟩

/-- The digits in front of the first `d` are the count, and the parts behind it are read in
turn. -/
theorem readDice_append {count : List Char} (hcount : ∀ c ∈ count, c.isDigit = true)
    (behind : List Char) :
    readDice (count ++ 'd' :: behind) = (do
      let count ← readCount count
      let (sides, rest) ← readSides behind
      let (scaling, rest) ← readScaling rest
      let modifier ← readModifier rest
      let t : Throw := { count, sides, scaling, modifier }
      if t.isWithinLimits then .ok t else .error .tooLarge) := by
  have hcountEnds : ∀ c ∈ count, (c != 'd') = true := by
    intro c hc
    rw [bne_iff_ne]
    rintro rfl
    cases hcount _ hc
  have hends : EndsRun (· != 'd') ('d' :: behind) := endsRun_cons (by decide)
  obtain ⟨hfront, hbehind⟩ := cut_eq_iff.2 ⟨rfl, hcountEnds, hends⟩
  simp only [readDice, hfront, hbehind]

/-- Once all parts are read there is nothing left to look at but the limits. -/
theorem readDice_eq_ite {count sides scaling modifier : List Char} {t : Throw}
    (hcount : CountText count t.count.toNat) (hsides : Numeral sides t.sides.toNat)
    (hscaling : ScalingText scaling t.scaling) (hmodifier : ModifierText modifier t.modifier.toInt)
    (countPos : t.count ≠ 0) (sidesPos : t.sides ≠ 0) (factorPos : t.scaling.factor ≠ 0)
    (small : t.modifier.toInt.natAbs ≤ 4294967295) :
    readDice (count ++ 'd' :: (sides ++ (scaling ++ modifier))) =
      if t.isWithinLimits then .ok t else .error .tooLarge := by
  have hmodifierEnds : EndsRun Char.isDigit modifier := hmodifier.endsRun (by decide) (by decide)
  have hcountRead := readCount_eq_ok_iff.2 ⟨hcount, countPos⟩
  have hsidesRead : readSides (sides ++ (scaling ++ modifier)) =
      .ok (t.sides, scaling ++ modifier) :=
    readPositive_eq_ok_iff.2
      ⟨⟨sides, rfl, hsides, hscaling.endsRun_append hmodifierEnds⟩, sidesPos⟩
  have hscalingRead := readScaling_of_scalingText hscaling factorPos hmodifierEnds
    (hmodifier.endsRun (by decide) (by decide))
  have hmodifierRead := readModifier_eq_ok_iff.2 ⟨hmodifier, small⟩
  simp only [readDice_append hcount.isDigit, bind_of_ok hcountRead, bind_of_ok hsidesRead,
    bind_of_ok hscalingRead, bind_of_ok hmodifierRead]

/-- Dice are no constant. -/
theorem integer?_append (count behind : List Char) : integer? (count ++ 'd' :: behind) = none := by
  refine Option.eq_none_iff_forall_ne_some.2 fun value hvalue => ?_
  have hd := (integer?_eq_some_iff.1 hvalue).isDigit_or_mem 'd' (by simp)
  revert hd
  decide

theorem readNormal_append (count behind : List Char) :
    readNormal (count ++ 'd' :: behind) = readDice (count ++ 'd' :: behind) := by
  rw [readNormal, integer?_append]

theorem readNormal_eq_ok_iff {text : List Char} {t : Throw} :
    readNormal text = .ok t ↔ Denotes text t := by
  constructor
  · intro h
    unfold readNormal at h
    split at h
    · next value hvalue =>
      obtain rfl := Except.ok.inj h
      exact .constant (integer?_eq_some_iff.1 hvalue)
    · exact denotes_of_readDice h
  · intro h
    cases h with
    | constant h => rw [readNormal, integer?_eq_some_iff.2 h]
    | dice hcount hsides hscaling hmodifier h =>
      have hlimits := isWithinLimits_iff.2 ⟨h.count.2, h.sides.2, h.factor.2⟩
      rw [readNormal_append, readDice_eq_ite hcount hsides hscaling hmodifier
        (one_le_toNat_iff.1 h.count.1) (one_le_toNat_iff.1 h.sides.1)
        (one_le_toNat_iff.1 h.factor.1) h.modifier, if_pos hlimits]

theorem parse_eq_ok_iff_normalize {text : String} {t : Throw} :
    parse text = .ok t ↔ Denotes (normalize text.toList) t := by
  rw [← readNormal_eq_ok_iff, parse, mapError_eq_ok_iff]

/-- **The texts of the grammar are read as what they describe, and no others are read.** -/
theorem parse_eq_ok_iff {text : String} {t : Throw} :
    parse text = .ok t ↔
      ∃ body, Trimmed text.toList body ∧ Denotes (body.map Char.toLower) t := by
  rw [parse_eq_ok_iff_normalize]
  constructor
  · intro h
    exact ⟨trim text.toList, trim_eq_iff.1 rfl, h⟩
  · rintro ⟨body, hbody, h⟩
    rw [normalize, trim_eq_iff.2 hbody]
    exact h

example : parse "\t03D06/2-01 " = .ok (dice 3 6 (.bands 2) (-1)) := by rfl

end Throw

end Wilderness
