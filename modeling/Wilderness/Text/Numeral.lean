/-!
# Numerals

Runs of the ten ASCII digits, read in base ten into the ranges that dice notation and command
lines use.  Leading zeros are allowed and an empty run is no numeral.  `Nat.repr` writes a
numeral; `natural?_repr` says that reading gives the number back.
-/

namespace Wilderness.Text

/-- The number that a run of digits denotes; `none` if the text is empty or holds anything else. -/
def natural? (text : List Char) : Option Nat :=
  if text ≠ [] ∧ text.all Char.isDigit then some (Nat.ofDigitChars 10 text 0) else none

/-- An unsigned 32-bit numeral. -/
def word? (text : List Char) : Option UInt32 :=
  match natural? text with
  | some n => if n < UInt32.size then some (UInt32.ofNat n) else none
  | none => none

/-- An unsigned 64-bit numeral, with or without a plus sign. -/
def unsigned? (text : List Char) : Option UInt64 :=
  let digits := match text with
    | '+' :: rest => rest
    | _ => text
  match natural? digits with
  | some n => if n < UInt64.size then some (UInt64.ofNat n) else none
  | none => none

/-- A signed 64-bit numeral, with or without a sign. -/
def integer? (text : List Char) : Option Int64 :=
  let value : Option Int := match text with
    | '-' :: rest => (natural? rest).map fun n : Nat => -(n : Int)
    | '+' :: rest => (natural? rest).map Int.ofNat
    | _ => (natural? text).map Int.ofNat
  match value with
  | some v => if Int64.minValue.toInt ≤ v ∧ v ≤ Int64.maxValue.toInt then some (Int64.ofInt v) else none
  | none => none

/-- A text cut after its leading run of digits. -/
def spanDigits (text : List Char) : List Char × List Char :=
  (text.takeWhile Char.isDigit, text.dropWhile Char.isDigit)

theorem natural?_toDigits (n : Nat) : natural? (Nat.toDigits 10 n) = some n := by
  have all : (Nat.toDigits 10 n).all Char.isDigit = true :=
    List.all_eq_true.2 fun _ hc => Nat.isDigit_of_mem_toDigits (by decide) (by decide) hc
  simp [natural?, all, Nat.toDigits_ne_nil, Nat.ofDigitChars_ten_toDigits]

theorem natural?_repr (n : Nat) : natural? n.repr.toList = some n := by
  rw [Nat.toList_repr, natural?_toDigits]

end Wilderness.Text
