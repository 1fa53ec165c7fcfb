import Wilderness.Decimal.Shortest

/-!
# Written decimals

How a double is written: the digits of its shortest decimal, laid out by a format.
-/

namespace Wilderness.Decimal

/-- The choices of a format for doubles. -/
structure Format where
  /-- Which of two equally short and equally near decimals is written. -/
  tie : TieRule
  /-- Whether a whole number ends in `.0`. -/
  wholePoint : Bool
  /-- Whether a number is written without an exponent, given the place of its decimal point
  relative to its first digit. -/
  positional : Int → Bool
  /-- The text of a number that is none. -/
  nan : String
  /-- The text of a positive number beyond all doubles. -/
  infinity : String
  /-- The text of a negative one. -/
  negativeInfinity : String

/-- A run of zeros. -/
def zeros (count : Nat) : String :=
  String.ofList (List.replicate count '0')

/-- The decimal with the point among or beside its digits. -/
def Literal.positional (d : Literal) (wholePoint : Bool) : String :=
  let digits := d.digits.repr
  if 0 ≤ d.exponent then
    digits ++ zeros (if d.digits = 0 then 0 else d.exponent.toNat) ++ (if wholePoint then ".0" else "")
  else
    let places := (-d.exponent).toNat
    let padded := (zeros (places + 1 - digits.length) ++ digits).toList
    let whole := padded.length - places
    String.ofList (padded.take whole) ++ "." ++ String.ofList (padded.drop whole)

/-- The decimal with one digit before the point and a signed exponent behind. -/
def Literal.scientific (d : Literal) : String :=
  let digits := d.digits.repr.toList
  let power := d.exponent + digits.length - 1
  match digits with
  | lead :: rest =>
    let fraction := if rest.isEmpty then "" else "." ++ String.ofList rest
    lead.toString ++ fraction ++ "e" ++ (if 0 ≤ power then "+" else "") ++ power.repr
  | [] => ""

/-- The text of a double in a format. -/
def Format.write (f : Format) (x : Float) : String :=
  match magnitude x with
  | .nan => f.nan
  | .infinite => if isNegative x then f.negativeInfinity else f.infinity
  | .finite b =>
    let d := b.shortest f.tie
    let point := d.exponent + d.digits.repr.length
    let text := if f.positional point then d.positional f.wholePoint else d.scientific
    if isNegative x then "-" ++ text else text

/-- Plain text: no exponent, no point in a whole number, and a tie goes to the larger decimal. -/
def plain : Format where
  tie := .upward
  wholePoint := false
  positional _ := true
  nan := "NaN"
  infinity := "inf"
  negativeInfinity := "-inf"

/-- Numbers of a JSON text: a whole number keeps its `.0`, an exponent is written from `1e+16`
upward and below `1e-5`, a tie goes to the even digit, and what is not finite becomes `null`. -/
def json : Format where
  tie := .toEven
  wholePoint := true
  positional point := -5 < point && point ≤ 16
  nan := "null"
  infinity := "null"
  negativeInfinity := "null"

end Wilderness.Decimal
