import Mathlib.Data.List.Induction
import Mathlib.Data.List.TakeWhile
import Wilderness.Text.Blank
import Wilderness.Text.Numeral

/-!
# Numerals and trimmed texts

Which texts are numerals, said digit by digit (`Numeral`), and which text is left between the
blanks at both ends of another (`Trimmed`).  The readers give the number of a text if and only if
it is a numeral of that number and it fits.
-/

namespace Wilderness.Text

/-! ## Runs -/

/-- The text behind a run: it is empty or begins with a character that cannot go on with the
run. -/
def EndsRun (p : Char → Bool) (rest : List Char) : Prop :=
  ∀ c ∈ rest.head?, p c = false

theorem endsRun_nil {p : Char → Bool} : EndsRun p [] := by
  intro c hc
  cases hc

theorem endsRun_cons {p : Char → Bool} {c : Char} {rest : List Char} (hc : p c = false) :
    EndsRun p (c :: rest) := by
  intro c' hc'
  obtain rfl : c = c' := by simpa using hc'
  exact hc

theorem endsRun_dropWhile (p : Char → Bool) (text : List Char) :
    EndsRun p (text.dropWhile p) := by
  intro c hc
  have hnot := List.head?_dropWhile_not p text
  rw [Option.mem_def.1 hc] at hnot
  simpa using hnot

theorem EndsRun.takeWhile_eq_nil {p : Char → Bool} {rest : List Char} (h : EndsRun p rest) :
    rest.takeWhile p = [] := by
  cases rest with
  | nil => rfl
  | cons c rest => rw [List.takeWhile_cons, h c rfl, if_neg Bool.false_ne_true]

theorem EndsRun.dropWhile_eq_self {p : Char → Bool} {rest : List Char} (h : EndsRun p rest) :
    rest.dropWhile p = rest := by
  cases rest with
  | nil => rfl
  | cons c rest => rw [List.dropWhile_cons, h c rfl, if_neg Bool.false_ne_true]

/-- A text is cut at one place only so that a run stands in front of it and ends there. -/
theorem cut_eq_iff {p : Char → Bool} {text run rest : List Char} :
    (text.takeWhile p = run ∧ text.dropWhile p = rest) ↔
      text = run ++ rest ∧ (∀ c ∈ run, p c = true) ∧ EndsRun p rest := by
  constructor
  · rintro ⟨rfl, rfl⟩
    refine ⟨List.takeWhile_append_dropWhile.symm, ?_, endsRun_dropWhile p text⟩
    exact fun c hc => List.mem_takeWhile_imp hc
  · rintro ⟨rfl, hrun, hrest⟩
    rw [List.takeWhile_append_of_pos hrun, List.dropWhile_append_of_pos hrun,
      hrest.takeWhile_eq_nil, hrest.dropWhile_eq_self, List.append_nil]
    exact ⟨rfl, rfl⟩

/-! ## Numerals -/

/-- The texts of digits in base ten, with their numbers. -/
inductive Numeral : List Char → Nat → Prop
  | digit {c : Char} : c.isDigit = true → Numeral [c] (c.toNat - '0'.toNat)
  | snoc {text : List Char} {n : Nat} {c : Char} : Numeral text n → c.isDigit = true →
      Numeral (text ++ [c]) (10 * n + (c.toNat - '0'.toNat))

/-- The numerals with or without a sign. -/
inductive SignedNumeral : List Char → Int → Prop
  | plain {text : List Char} {n : Nat} : Numeral text n → SignedNumeral text n
  | plus {text : List Char} {n : Nat} : Numeral text n → SignedNumeral ('+' :: text) n
  | minus {text : List Char} {n : Nat} : Numeral text n → SignedNumeral ('-' :: text) (-n)

theorem Numeral.isDigit {text : List Char} {n : Nat} (h : Numeral text n) :
    ∀ c ∈ text, c.isDigit = true := by
  induction h with
  | digit hc =>
    intro c hmem
    rwa [List.mem_singleton.1 hmem]
  | snoc _ hc ih =>
    intro c hmem
    rcases List.mem_append.1 hmem with hmem | hmem
    · exact ih c hmem
    · rwa [List.mem_singleton.1 hmem]

theorem SignedNumeral.isDigit_or_mem {text : List Char} {value : Int}
    (h : SignedNumeral text value) : ∀ c ∈ text, c.isDigit = true ∨ c ∈ ['+', '-'] := by
  intro c hc
  cases h with
  | plain h => exact .inl (h.isDigit c hc)
  | plus h =>
    rcases List.mem_cons.1 hc with rfl | hc
    · exact .inr (by decide)
    · exact .inl (h.isDigit c hc)
  | minus h =>
    rcases List.mem_cons.1 hc with rfl | hc
    · exact .inr (by decide)
    · exact .inl (h.isDigit c hc)

theorem Numeral.ne_nil {text : List Char} {n : Nat} (h : Numeral text n) : text ≠ [] := by
  cases h with
  | digit => exact List.cons_ne_nil _ _
  | snoc => simp

theorem Numeral.ne_cons {text : List Char} {n : Nat} {c : Char} (h : Numeral text n)
    (hc : c.isDigit = false) (rest : List Char) : text ≠ c :: rest := by
  rintro rfl
  rw [h.isDigit c List.mem_cons_self] at hc
  cases hc

theorem Numeral.ofDigitChars {text : List Char} {n : Nat} (h : Numeral text n) :
    Nat.ofDigitChars 10 text 0 = n := by
  induction h with
  | digit => simp [Nat.ofDigitChars_cons]
  | snoc _ _ ih => rw [Nat.ofDigitChars_append, ih, Nat.ofDigitChars_cons, Nat.ofDigitChars_nil]

theorem numeral_of_isDigit {text : List Char} (hne : text ≠ [])
    (hall : ∀ c ∈ text, c.isDigit = true) : Numeral text (Nat.ofDigitChars 10 text 0) := by
  -- the value grows at the last digit, so the induction takes digits off there
  induction text using List.reverseRecOn with
  | nil => exact absurd rfl hne
  | append_singleton text c ih =>
    have hc : c.isDigit = true := hall c (by simp)
    rw [Nat.ofDigitChars_append, Nat.ofDigitChars_cons, Nat.ofDigitChars_nil]
    by_cases hnil : text = []
    · subst hnil
      simpa using Numeral.digit hc
    · exact .snoc (ih hnil fun c' hc' => hall c' (List.mem_append_left _ hc')) hc

theorem natural?_eq_some_iff {text : List Char} {n : Nat} :
    natural? text = some n ↔ Numeral text n := by
  unfold natural?
  constructor
  · intro h
    split at h
    · next hdigits =>
      obtain rfl := Option.some.inj h
      exact numeral_of_isDigit hdigits.1 (List.all_eq_true.1 hdigits.2)
    · cases h
  · intro h
    rw [if_pos ⟨h.ne_nil, List.all_eq_true.2 h.isDigit⟩, h.ofDigitChars]

theorem numeral_repr (n : Nat) : Numeral n.repr.toList n :=
  natural?_eq_some_iff.1 (natural?_repr n)

theorem word?_eq_some_iff {text : List Char} {w : UInt32} :
    word? text = some w ↔ Numeral text w.toNat := by
  rw [← natural?_eq_some_iff]
  unfold word?
  constructor
  · intro h
    split at h
    · next n hn =>
      split at h
      · next hlt =>
        obtain rfl := Option.some.inj h
        rw [hn, UInt32.toNat_ofNat_of_lt' hlt]
      · cases h
    · cases h
  · intro h
    simp only [h]
    rw [if_pos w.toNat_lt, UInt32.ofNat_toNat]

/-- The number of a text is read into a word if it fits. -/
theorem fit_eq_some_iff {value : Option Int} {w : Int64} :
    (match value with
      | some v =>
        if Int64.minValue.toInt ≤ v ∧ v ≤ Int64.maxValue.toInt then some (Int64.ofInt v) else none
      | none => none) = some w ↔ value = some w.toInt := by
  cases value with
  | none => simp
  | some v =>
    simp only [Option.some.injEq]
    constructor
    · intro h
      split at h
      · next hv =>
        obtain rfl := Option.some.inj h
        rw [Int64.toInt_ofInt_of_le hv.1 (Int.lt_add_one_of_le hv.2)]
      · cases h
    · rintro rfl
      rw [if_pos ⟨w.minValue_le_toInt, w.toInt_le⟩, Int64.ofInt_toInt]

theorem integer?_eq_some_iff {text : List Char} {w : Int64} :
    integer? text = some w ↔ SignedNumeral text w.toInt := by
  refine fit_eq_some_iff.trans ?_
  constructor
  · intro h
    split at h
    · obtain ⟨n, hn, hw⟩ := Option.map_eq_some_iff.1 h
      rw [← hw]
      exact .minus (natural?_eq_some_iff.1 hn)
    · obtain ⟨n, hn, hw⟩ := Option.map_eq_some_iff.1 h
      rw [← hw]
      exact .plus (natural?_eq_some_iff.1 hn)
    · obtain ⟨n, hn, hw⟩ := Option.map_eq_some_iff.1 h
      rw [← hw]
      exact .plain (natural?_eq_some_iff.1 hn)
  · generalize w.toInt = value
    intro h
    cases h with
    | plain h =>
      split
      · exact absurd (h.isDigit _ List.mem_cons_self) (by decide)
      · exact absurd (h.isDigit _ List.mem_cons_self) (by decide)
      · rw [natural?_eq_some_iff.2 h]
        rfl
    | plus h =>
      simp only [natural?_eq_some_iff.2 h, Option.map_some, Int.ofNat_eq_natCast]
    | minus h =>
      simp only [natural?_eq_some_iff.2 h, Option.map_some]

theorem signedNumeral_repr (value : Int) : SignedNumeral value.repr.toList value := by
  cases value with
  | ofNat n => exact .plain (numeral_repr n)
  | negSucc n =>
    have htext : (Int.negSucc n).repr.toList = '-' :: (n + 1).repr.toList := by
      simp [Int.repr]
    rw [htext]
    exact .minus (numeral_repr (n + 1))

/-! ## Trimmed texts -/

/-- The body of a text stands between blanks and has no blank at its own ends. -/
structure Trimmed (text body : List Char) : Prop where
  between : ∃ before after, text = before ++ body ++ after ∧
    (∀ c ∈ before, isBlank c = true) ∧ ∀ c ∈ after, isBlank c = true
  head : ∀ c ∈ body.head?, isBlank c = false
  last : ∀ c ∈ body.getLast?, isBlank c = false

theorem trimmed_trim (text : List Char) : Trimmed text (trim text) := by
  obtain ⟨after, hrest, hafter⟩ : ∃ after, text.dropWhile isBlank = trim text ++ after ∧
      ∀ c ∈ after, isBlank c = true := by
    refine ⟨((text.dropWhile isBlank).reverse.takeWhile isBlank).reverse, ?_, fun c hc =>
      List.mem_takeWhile_imp (List.mem_reverse.1 hc)⟩
    rw [trim, ← List.reverse_append, List.takeWhile_append_dropWhile, List.reverse_reverse]
  constructor
  · refine ⟨text.takeWhile isBlank, after, ?_, fun c hc => List.mem_takeWhile_imp hc, hafter⟩
    rw [List.append_assoc, ← hrest, List.takeWhile_append_dropWhile]
  · intro c hc
    refine endsRun_dropWhile isBlank text c ?_
    rw [hrest, List.head?_append, Option.mem_def.1 hc]
    rfl
  · intro c hc
    rw [trim, List.getLast?_reverse] at hc
    exact endsRun_dropWhile isBlank _ c hc

theorem trim_eq_iff {text body : List Char} : trim text = body ↔ Trimmed text body := by
  constructor
  · rintro rfl
    exact trimmed_trim text
  · rintro ⟨⟨before, after, rfl, hbefore, hafter⟩, hhead, hlast⟩
    have hend : EndsRun isBlank body.reverse := by
      intro c hc
      exact hlast c (by rwa [List.head?_reverse] at hc)
    have hback : trim (before ++ body ++ after) =
        (((body ++ after).dropWhile isBlank).reverse.dropWhile isBlank).reverse := by
      rw [trim, List.append_assoc, List.dropWhile_append_of_pos hbefore]
    rw [hback]
    cases body with
    | nil =>
      have hnil : after.dropWhile isBlank = [] := List.dropWhile_eq_nil_iff.2 hafter
      rw [List.nil_append, hnil]
      rfl
    | cons c body =>
      have hfront : EndsRun isBlank (c :: body ++ after) := endsRun_cons (hhead c rfl)
      have hafter' : ∀ c ∈ after.reverse, isBlank c = true :=
        fun c hc => hafter c (List.mem_reverse.1 hc)
      rw [hfront.dropWhile_eq_self, List.reverse_append, List.dropWhile_append_of_pos hafter',
        hend.dropWhile_eq_self, List.reverse_reverse]

theorem trim_eq_self {text : List Char} (h : ∀ c ∈ text, isBlank c = false) :
    trim text = text :=
  trim_eq_iff.2 ⟨⟨[], [], by simp, by simp, by simp⟩,
    fun c hc => h c (List.mem_of_mem_head? hc), fun c hc => h c (List.mem_of_getLast? hc)⟩

end Wilderness.Text
