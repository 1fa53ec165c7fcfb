import Wilderness.Json.Basic
import Wilderness.Text.Numeral

/-!
# Reading JSON texts

A reader takes a value from the front of a text and gives the rest of the text.  Every value takes
at least one character, so the length of the text bounds the depth of the reading.
-/

namespace Wilderness.Json

open Text

/-- The text behind leading blanks. -/
def skipBlanks (text : List Char) : List Char :=
  text.dropWhile fun c => c == ' ' || c == '\t' || c == '\n' || c == '\r'

/-! ## Numbers -/

/-- The double nearest to `digits * 10 ^ exponent`, a power that no double can have being cut
short. -/
def decimalFloat (digits : Nat) (exponent : Int) : Float :=
  if digits = 0 then 0.0
  else if digits.repr.length + exponent < -400 then 0.0
  else if 400 < digits.repr.length + exponent then 1.0 / 0.0
  else Float.ofScientific digits (exponent < 0) exponent.natAbs

/-- A double as a number, if it is finite. -/
def finite? (value : Float) : Option Json :=
  if finite : value.isFinite = true then some (.float value finite) else none

/-- A number without point and exponent: whole if it fits in 64 bits, signed or unsigned.  Negative
zero is a double. -/
def wholeNumber (negative : Bool) (magnitude : Nat) : Option Json :=
  if negative then
    if magnitude = 0 ∨ Nat.pow 2 63 < magnitude then finite? (-(decimalFloat magnitude 0))
    else some (.int (-magnitude))
  else if magnitude < Nat.pow 2 64 then some (.int magnitude)
  else finite? (decimalFloat magnitude 0)

/-- A minus sign in front of a text, if there is one, and the text behind it. -/
def cutMinus : List Char → Bool × List Char
  | '-' :: rest => (true, rest)
  | rest => (false, rest)

/-- A sign in front of a text, if there is one, and the text behind it. -/
def cutSign : List Char → Bool × List Char
  | '+' :: rest => (false, rest)
  | rest => cutMinus rest

/-- The digits behind the point of a number, if there is one, and the text behind them. -/
def readPlaces : List Char → Option (Option (List Char) × List Char)
  | '.' :: rest =>
    let (places, rest) := spanDigits rest
    if places.isEmpty then none else some (some places, rest)
  | rest => some (none, rest)

/-- The exponent behind the digits of a number, if one is written, and the text behind it. -/
def readExponent : List Char → Option (Option Int × List Char)
  | 'e' :: rest | 'E' :: rest =>
    let (negative, rest) := cutSign rest
    let (digits, rest) := spanDigits rest
    (natural? digits).map fun n : Nat => (some (if negative then -(n : Int) else n), rest)
  | rest => some (none, rest)

/-- The number that the parts of its text stand for.  A point or an exponent makes it a double. -/
def numberOf (negative : Bool) (whole : List Char) (places : Option (List Char))
    (exponent : Option Int) : Option Json := do
  if places.isNone && exponent.isNone then
    wholeNumber negative (← natural? whole)
  else
    let places := places.getD []
    let digits ← natural? (whole ++ places)
    let magnitude := decimalFloat digits (exponent.getD 0 - places.length)
    finite? (if negative then -magnitude else magnitude)

/-- A number and the text behind it.  No digit stands behind a leading zero. -/
def readNumber (text : List Char) : Option (Json × List Char) := do
  let (negative, text) := cutMinus text
  let (whole, rest) := spanDigits text
  if whole.isEmpty || (whole.head? == some '0' && 1 < whole.length) then none
  else
    let (places, rest) ← readPlaces rest
    let (exponent, rest) ← readExponent rest
    let number ← numberOf negative whole places exponent
    return (number, rest)

/-! ## Texts -/

/-- The value of a hexadecimal digit. -/
def hexValue? (c : Char) : Option Nat :=
  if '0' ≤ c ∧ c ≤ '9' then some (c.toNat - 48)
  else if 'a' ≤ c ∧ c ≤ 'f' then some (c.toNat - 87)
  else if 'A' ≤ c ∧ c ≤ 'F' then some (c.toNat - 55)
  else none

/-- The number of four hexadecimal digits. -/
def readUnit : List Char → Option (Nat × List Char)
  | a :: b :: c :: d :: rest => do
    let a ← hexValue? a
    let b ← hexValue? b
    let c ← hexValue? c
    let d ← hexValue? d
    return (((a * 16 + b) * 16 + c) * 16 + d, rest)
  | _ => none

/-- The character of an escape by number; a character beyond four digits takes two halves. -/
def readEscapedUnit (text : List Char) : Option (Char × List Char) := do
  let (unit, rest) ← readUnit text
  if 0xd800 ≤ unit ∧ unit < 0xdc00 then
    match rest with
    | '\\' :: 'u' :: rest => do
      let (low, rest) ← readUnit rest
      if 0xdc00 ≤ low ∧ low < 0xe000 then
        return (Char.ofNat (0x10000 + (unit - 0xd800) * 0x400 + (low - 0xdc00)), rest)
      else none
    | _ => none
  else if 0xdc00 ≤ unit ∧ unit < 0xe000 then none
  else return (Char.ofNat unit, rest)

/-- The character of a one-letter escape. -/
def escaped? : Char → Option Char
  | '"' => some '"'
  | '\\' => some '\\'
  | '/' => some '/'
  | 'b' => some '\x08'
  | 'f' => some '\x0c'
  | 'n' => some '\n'
  | 'r' => some '\r'
  | 't' => some '\t'
  | _ => none

/-- The text up to the closing quote, put behind the reversed characters before. -/
def readQuoted : (fuel : Nat) → (before : List Char) → List Char → Option (String × List Char)
  | _, before, '"' :: rest => some (String.ofList before.reverse, rest)
  | fuel + 1, before, '\\' :: 'u' :: rest => do
    let (c, rest) ← readEscapedUnit rest
    readQuoted fuel (c :: before) rest
  | fuel + 1, before, '\\' :: c :: rest => do
    let c ← escaped? c
    readQuoted fuel (c :: before) rest
  | fuel + 1, before, c :: rest =>
    if c.toNat < 32 || c == '\\' then none else readQuoted fuel (c :: before) rest
  | _, _, _ => none

/-! ## Values -/

mutual

/-- A value behind blanks. -/
def readValue : (fuel : Nat) → List Char → Option (Json × List Char)
  | 0, _ => none
  | fuel + 1, text =>
    match skipBlanks text with
    | 'n' :: 'u' :: 'l' :: 'l' :: rest => some (null, rest)
    | 't' :: 'r' :: 'u' :: 'e' :: rest => some (bool true, rest)
    | 'f' :: 'a' :: 'l' :: 's' :: 'e' :: rest => some (bool false, rest)
    | '"' :: rest => (readQuoted rest.length [] rest).map fun (text, rest) => (string text, rest)
    | '[' :: rest =>
      match skipBlanks rest with
      | ']' :: rest => some (array [], rest)
      | rest => readElements fuel [] rest
    | '\x7b' :: rest =>
      match skipBlanks rest with
      | '\x7d' :: rest => some (object [], rest)
      | rest => readMembers fuel [] rest
    | rest => readNumber rest

/-- The elements up to the end of an array, put behind the reversed elements before. -/
def readElements : (fuel : Nat) → (before : List Json) → List Char → Option (Json × List Char)
  | 0, _, _ => none
  | fuel + 1, before, text => do
    let (element, rest) ← readValue fuel text
    match skipBlanks rest with
    | ',' :: rest => readElements fuel (element :: before) rest
    | ']' :: rest => some (array (element :: before).reverse, rest)
    | _ => none

/-- The members up to the end of an object.  The last value of a name counts. -/
def readMembers :
    (fuel : Nat) → (before : List (String × Json)) → List Char → Option (Json × List Char)
  | 0, _, _ => none
  | fuel + 1, before, text =>
    match skipBlanks text with
    | '"' :: rest => do
      let (name, rest) ← readQuoted rest.length [] rest
      match skipBlanks rest with
      | ':' :: rest => do
        let (value, rest) ← readValue fuel rest
        let members := setMember before name value
        match skipBlanks rest with
        | ',' :: rest => readMembers fuel members rest
        | '\x7d' :: rest => some (object members, rest)
        | _ => none
      | _ => none
    | _ => none

end

/-- The value of a whole text. -/
def parse? (text : String) : Option Json := do
  let text := text.toList
  let (value, rest) ← readValue (2 * text.length + 2) text
  if (skipBlanks rest).isEmpty then some value else none

end Wilderness.Json
