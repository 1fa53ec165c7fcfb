import Mathlib.Data.List.Basic
import Mathlib.Tactic.ByContra
import Wilderness.Json.Reader
import Wilderness.Proofs.Numerals

/-!
# Numbers of JSON texts

A number is read up to where nothing goes on with it, so what comes next does not change how it is
read (`Json.readNumber_append`), and a whole number that fits into 64 bits is read back from its
numeral (`Json.readNumber_repr`).
-/

namespace Wilderness.Json

open Text

/-! ## Ends of numbers -/

/-- A character that can go on with a number. -/
def isNumberMark (c : Char) : Bool :=
  c.isDigit || c == '.' || c == 'e' || c == 'E'

/-- What stands behind a number does not go on with it. -/
abbrev EndsNumber (rest : List Char) : Prop := EndsRun isNumberMark rest

theorem EndsNumber.endsRun_isDigit {rest : List Char} (h : EndsNumber rest) :
    EndsRun Char.isDigit rest := by
  intro c hc
  have hmark := h c hc
  simp only [isNumberMark, Bool.or_eq_false_iff] at hmark
  exact hmark.1.1.1

theorem EndsNumber.ne {rest : List Char} {c : Char} {text : List Char} (h : EndsNumber rest)
    (hc : isNumberMark c = true) : rest ≠ c :: text := by
  rintro rfl
  rw [h c rfl] at hc
  cases hc

/-! Every part of a number is read in the same way when something follows that cannot go on with
it. -/

theorem spanDigits_append (text : List Char) {rest : List Char} (h : EndsRun Char.isDigit rest) :
    spanDigits (text ++ rest) = ((spanDigits text).1, (spanDigits text).2 ++ rest) := by
  have hcut : EndsRun Char.isDigit ((spanDigits text).2 ++ rest) := by
    intro c hc
    have hends := endsRun_dropWhile Char.isDigit text
    change c ∈ (text.dropWhile Char.isDigit ++ rest).head? at hc
    cases hdrop : text.dropWhile Char.isDigit with
    | nil =>
      rw [hdrop] at hc
      exact h c hc
    | cons c' behind =>
      rw [hdrop] at hc hends
      exact hends c hc
  have htext : text ++ rest = (spanDigits text).1 ++ ((spanDigits text).2 ++ rest) := by
    rw [← List.append_assoc, spanDigits, List.takeWhile_append_dropWhile]
  exact Prod.ext_iff.2 (cut_eq_iff.2 ⟨htext, fun c hc => List.mem_takeWhile_imp hc, hcut⟩)

theorem cutMinus_append {text : List Char} (hne : text ≠ []) (rest : List Char) :
    cutMinus (text ++ rest) = ((cutMinus text).1, (cutMinus text).2 ++ rest) := by
  cases text with
  | nil => exact absurd rfl hne
  | cons c text =>
    by_cases hminus : c = '-'
    · subst hminus
      rfl
    · simp [cutMinus, hminus]

theorem cutSign_append {text : List Char} (hne : text ≠ []) (rest : List Char) :
    cutSign (text ++ rest) = ((cutSign text).1, (cutSign text).2 ++ rest) := by
  cases text with
  | nil => exact absurd rfl hne
  | cons c text =>
    by_cases hplus : c = '+'
    · subst hplus
      rfl
    · simpa [cutSign, hplus] using cutMinus_append (List.cons_ne_nil c text) rest

theorem readPlaces_of_ne {text : List Char} (h : ∀ rest, text ≠ '.' :: rest) :
    readPlaces text = some (none, text) := by
  unfold readPlaces
  split
  · exact absurd rfl (h _)
  · rfl

theorem readPlaces_append {text rest behind : List Char} {places : Option (List Char)}
    (hrest : EndsNumber rest) (h : readPlaces text = some (places, behind)) :
    readPlaces (text ++ rest) = some (places, behind ++ rest) := by
  cases text with
  | nil =>
    cases h
    exact readPlaces_of_ne fun _ => hrest.ne (by decide)
  | cons c text =>
    by_cases hc : c = '.'
    · subst hc
      simp only [readPlaces, List.cons_append, spanDigits_append _ hrest.endsRun_isDigit] at h ⊢
      split at h
      · cases h
      · next hplaces =>
        cases h
        rw [if_neg hplaces]
    · have hplain : ∀ text, readPlaces (c :: text) = some (none, c :: text) :=
        fun text => readPlaces_of_ne fun _ h => hc (List.cons.inj h).1
      rw [hplain] at h
      cases h
      exact hplain _

theorem readExponent_mark {c : Char} (hc : c = 'e' ∨ c = 'E') (text : List Char) :
    readExponent (c :: text) = (natural? (spanDigits (cutSign text).2).1).map fun n : Nat =>
      (some (if (cutSign text).1 then -(n : Int) else n), (spanDigits (cutSign text).2).2) := by
  rcases hc with rfl | rfl <;> rfl

theorem readExponent_of_ne {text : List Char} (hlower : ∀ rest, text ≠ 'e' :: rest)
    (hupper : ∀ rest, text ≠ 'E' :: rest) : readExponent text = some (none, text) := by
  unfold readExponent
  split
  · exact absurd rfl (hlower _)
  · exact absurd rfl (hupper _)
  · rfl

theorem readExponent_append {text rest behind : List Char} {exponent : Option Int}
    (hrest : EndsNumber rest) (h : readExponent text = some (exponent, behind)) :
    readExponent (text ++ rest) = some (exponent, behind ++ rest) := by
  cases text with
  | nil =>
    cases h
    exact readExponent_of_ne (fun _ => hrest.ne (by decide)) (fun _ => hrest.ne (by decide))
  | cons c text =>
    by_cases hc : c = 'e' ∨ c = 'E'
    · rw [readExponent_mark hc, Option.map_eq_some_iff] at h
      rw [List.cons_append, readExponent_mark hc, Option.map_eq_some_iff]
      obtain ⟨n, hn, h⟩ := h
      obtain ⟨rfl, rfl⟩ := Prod.mk.inj h
      have hne : text ≠ [] := by
        rintro rfl
        cases hn
      rw [cutSign_append hne, spanDigits_append _ hrest.endsRun_isDigit]
      exact ⟨n, hn, rfl⟩
    · have hplain : ∀ text, readExponent (c :: text) = some (none, c :: text) :=
        fun text => readExponent_of_ne (fun _ h => hc (.inl (List.cons.inj h).1))
          (fun _ h => hc (.inr (List.cons.inj h).1))
      rw [hplain] at h
      cases h
      exact hplain _

/-- The digits that can begin a number: some, and nothing behind a leading zero. -/
def BeginsNumber (whole : List Char) : Prop :=
  whole ≠ [] ∧ (whole.head? = some '0' → whole.length ≤ 1)

theorem readNumber_eq_some_iff {text behind : List Char} {value : Json} :
    readNumber text = some (value, behind) ↔
      BeginsNumber (spanDigits (cutMinus text).2).1 ∧ ∃ places afterPlaces exponent,
        readPlaces (spanDigits (cutMinus text).2).2 = some (places, afterPlaces) ∧
        readExponent afterPlaces = some (exponent, behind) ∧
        numberOf (cutMinus text).1 (spanDigits (cutMinus text).2).1 places exponent =
          some value := by
  have hbegins : ∀ whole : List Char,
      (whole.isEmpty || (whole.head? == some '0' && decide (1 < whole.length))) = true ↔
        ¬BeginsNumber whole := by
    intro whole
    simp only [BeginsNumber, Bool.or_eq_true, List.isEmpty_iff, Bool.and_eq_true, beq_iff_eq,
      decide_eq_true_eq, ne_eq, not_and_or, not_not, Classical.not_imp, Nat.not_le]
  unfold readNumber
  dsimp only
  by_cases h : BeginsNumber (spanDigits (cutMinus text).2).1
  · rw [if_neg (mt (hbegins _).1 (not_not_intro h))]
    simp only [h, true_and, Option.bind_eq_bind, Option.bind_eq_some_iff, Prod.exists,
      Option.pure_def, Option.some.injEq, Prod.mk.injEq]
    constructor
    · rintro ⟨places, afterPlaces, hplaces, exponent, _, hexponent, _, hvalue, rfl, rfl⟩
      exact ⟨places, afterPlaces, exponent, hplaces, hexponent, hvalue⟩
    · rintro ⟨places, afterPlaces, exponent, hplaces, hexponent, hvalue⟩
      exact ⟨places, afterPlaces, hplaces, exponent, _, hexponent, _, hvalue, rfl, rfl⟩
  · rw [if_pos ((hbegins _).2 h)]
    exact ⟨fun h => (nomatch h), fun hbegins => absurd hbegins.1 h⟩

theorem readNumber_append {text rest behind : List Char} {value : Json} (hrest : EndsNumber rest)
    (h : readNumber text = some (value, behind)) :
    readNumber (text ++ rest) = some (value, behind ++ rest) := by
  have hne : text ≠ [] := by
    rintro rfl
    cases h
  obtain ⟨hbegins, places, afterPlaces, exponent, hplaces, hexponent, hvalue⟩ :=
    readNumber_eq_some_iff.1 h
  refine readNumber_eq_some_iff.2 ?_
  rw [cutMinus_append hne, spanDigits_append _ hrest.endsRun_isDigit]
  exact ⟨hbegins, places, _, exponent, readPlaces_append hrest hplaces,
    readExponent_append hrest hexponent, hvalue⟩

theorem readNumber_head {text behind : List Char} {value : Json}
    (h : readNumber text = some (value, behind)) :
    ∃ c rest, text = c :: rest ∧ (c = '-' ∨ c.isDigit = true) := by
  have hwhole := (readNumber_eq_some_iff.1 h).1.1
  cases text with
  | nil => exact absurd rfl hwhole
  | cons c rest =>
    refine ⟨c, rest, rfl, ?_⟩
    by_cases hminus : c = '-'
    · exact .inl hminus
    · right
      by_contra hdigit
      simp [cutMinus, hminus, spanDigits, hdigit] at hwhole

/-! ## Whole numbers -/

theorem head?_toDigits_ne {n : Nat} (hpos : 0 < n) : (Nat.toDigits 10 n).head? ≠ some '0' := by
  induction n using Nat.strongRecOn with
  | _ n ih =>
    by_cases hn : n < 10
    · rw [Nat.toDigits_of_lt_base hn, List.head?_cons, ne_eq, Option.some.injEq,
        Nat.digitChar_eq_zero]
      omega
    · rw [Nat.toDigits_of_base_le (by decide) (by omega),
        List.head?_append_of_ne_nil _ Nat.toDigits_ne_nil]
      exact ih (n / 10) (by omega) (by omega)

theorem beginsNumber_repr (n : Nat) : BeginsNumber n.repr.toList := by
  rw [Nat.toList_repr]
  refine ⟨Nat.toDigits_ne_nil, fun hzero => ?_⟩
  rcases Nat.eq_zero_or_pos n with rfl | hpos
  · simp
  · exact absurd hzero (head?_toDigits_ne hpos)

/-- Whether a whole number fits into 64 bits, with a sign or without. -/
def Fits (value : Int) : Prop :=
  -Nat.pow 2 63 ≤ value ∧ value < Nat.pow 2 64

theorem cutMinus_repr (n : Nat) : cutMinus n.repr.toList = (false, n.repr.toList) := by
  have hminus := (numeral_repr n).ne_cons (by decide : '-'.isDigit = false)
  unfold cutMinus
  split
  · next rest htext => exact absurd htext (hminus rest)
  · rfl

theorem readNumber_repr {value : Int} (h : Fits value) :
    readNumber value.repr.toList = some (.int value, []) := by
  have hspan : ∀ n : Nat, spanDigits n.repr.toList = (n.repr.toList, []) := by
    intro n
    exact Prod.ext_iff.2
      (cut_eq_iff.2 ⟨(List.append_nil _).symm, (numeral_repr n).isDigit, endsRun_nil⟩)
  refine readNumber_eq_some_iff.2 ?_
  cases value with
  | ofNat n =>
    have hrepr : (Int.ofNat n).repr = n.repr := rfl
    rw [hrepr, cutMinus_repr, hspan]
    refine ⟨beginsNumber_repr n, none, [], none, rfl, rfl, ?_⟩
    have hlt : n < Nat.pow 2 64 := Int.ofNat_lt.1 h.2
    simp only [numberOf, natural?_repr, wholeNumber, Option.isNone_none, Bool.and_self, if_true,
      Option.bind_eq_bind, Option.bind_some]
    rw [if_neg Bool.false_ne_true, if_pos hlt]
    rfl
  | negSucc n =>
    have hrepr : (Int.negSucc n).repr.toList = '-' :: (n + 1).repr.toList := by
      simp [Int.repr]
    rw [hrepr]
    simp only [cutMinus, hspan]
    refine ⟨beginsNumber_repr (n + 1), none, [], none, rfl, rfl, ?_⟩
    have hle : ¬(n + 1 = 0 ∨ Nat.pow 2 63 < n + 1) := by
      have := h.1
      omega
    simp only [numberOf, natural?_repr, wholeNumber, Option.isNone_none, Bool.and_self, if_true,
      Option.bind_eq_bind, Option.bind_some, if_neg hle]
    rfl

end Wilderness.Json
