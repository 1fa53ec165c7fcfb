import Wilderness.Dice.Throw
import Wilderness.Text.Blank
import Wilderness.Text.Numeral

/-!
# The written form of throws

`[count]d<sides>[x<factor> | /<width>][+<add> | -<subtract>]`, or a whole number for a constant.
Blanks around a text and the case of its letters do not matter.
-/

namespace Wilderness

/-- What is wrong with the written form of a throw. -/
inductive ThrowDefect where
  | invalid
  | zeroSides
  | zeroScale
  | tooLarge
deriving DecidableEq, Repr

/-- A text that is no throw. -/
structure ThrowError where
  defect : ThrowDefect
  /-- The text as it was given. -/
  text : String
deriving DecidableEq, Repr

/-- The error in words. -/
def ThrowError.message (e : ThrowError) : String :=
  match e.defect with
  | .invalid => "invalid dice expression: '" ++ e.text ++ "'"
  | .zeroSides => "dice expression '" ++ e.text ++ "' has a zero-sided die"
  | .zeroScale => "dice expression '" ++ e.text ++ "' scales by zero"
  | .tooLarge => "dice expression '" ++ e.text ++ "' is too large"

namespace Throw

open Text

/-! ## Reading -/

/-- A numeral, or the text is invalid. -/
def readWord (digits : List Char) : Except ThrowDefect UInt32 :=
  match word? digits with
  | some n => .ok n
  | none => .error .invalid

/-- The number of dice: one if nothing is written, and never none. -/
def readCount (digits : List Char) : Except ThrowDefect UInt32 := do
  let count ← if digits.isEmpty then .ok 1 else readWord digits
  if count = 0 then .error .invalid else .ok count

/-- A number and the text behind it.  Zero has a defect of its own. -/
def readPositive (zero : ThrowDefect) (text : List Char) :
    Except ThrowDefect (UInt32 × List Char) := do
  let (digits, rest) := spanDigits text
  let n ← readWord digits
  if n = 0 then .error zero else .ok (n, rest)

/-- The sides of the dice, and the text behind them. -/
def readSides : List Char → Except ThrowDefect (UInt32 × List Char) :=
  readPositive .zeroSides

/-- The number of a scaling, and the text behind it. -/
def readFactor : List Char → Except ThrowDefect (UInt32 × List Char) :=
  readPositive .zeroScale

/-- The scaling, if one is written, and the text behind it. -/
def readScaling : List Char → Except ThrowDefect (Scaling × List Char)
  | 'x' :: text => do
    let (factor, rest) ← readFactor text
    return (.times factor, rest)
  | '/' :: text => do
    let (width, rest) ← readFactor text
    return (.bands width, rest)
  | text => .ok (.times 1, text)

/-- The modifier, which takes all the text that is left. -/
def readModifier : List Char → Except ThrowDefect Int64
  | [] => .ok 0
  | '+' :: digits => do return Int64.ofInt (← readWord digits).toNat
  | '-' :: digits => do return Int64.ofInt (-(← readWord digits).toNat)
  | _ => .error .invalid

/-- Dice whose count stands before the first `d`. -/
def readDice (text : List Char) : Except ThrowDefect Throw :=
  match text.dropWhile (· != 'd') with
  | [] => .error .invalid
  | _ :: behind => do
    let count ← readCount (text.takeWhile (· != 'd'))
    let (sides, rest) ← readSides behind
    let (scaling, rest) ← readScaling rest
    let modifier ← readModifier rest
    let t : Throw := { count, sides, scaling, modifier }
    if t.isWithinLimits then .ok t else .error .tooLarge

/-- A text without the blanks around it, in lower case. -/
def normalize (text : List Char) : List Char :=
  (trim text).map Char.toLower

/-- A constant or dice, from a normalized text. -/
def readNormal (text : List Char) : Except ThrowDefect Throw :=
  match integer? text with
  | some value => .ok (.constant value)
  | none => readDice text

/-- The throw that a text describes. -/
def parse (text : String) : Except ThrowError Throw :=
  (readNormal (normalize text.toList)).mapError fun defect => { defect, text }

/-! ## Writing -/

/-- The written scaling; a factor of one goes without saying. -/
def renderScaling : Scaling → String
  | .times n => if n = 1 then "" else "x" ++ n.toNat.repr
  | .bands n => "/" ++ n.toNat.repr

/-- The written modifier; zero goes without saying. -/
def renderModifier (modifier : Int) : String :=
  if modifier = 0 then ""
  else if 0 < modifier then "+" ++ modifier.repr
  else modifier.repr

/-- The shortest text that describes the throw. -/
def render (t : Throw) : String :=
  if t.isConstant then t.modifier.toInt.repr
  else t.count.toNat.repr ++ "d" ++ t.sides.toNat.repr ++ renderScaling t.scaling ++
    renderModifier t.modifier.toInt

end Throw

end Wilderness
