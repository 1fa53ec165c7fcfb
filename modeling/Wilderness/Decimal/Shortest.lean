import Wilderness.Decimal.Binary

/-!
# Shortest decimals

The decimal with the fewest digits that rounds to a given double, and of those the nearest one.
On each decimal grid only the two neighbours of the exact value can be candidates; the coarsest
grid on which one of them rounds to the double has the fewest digits.
-/

namespace Wilderness.Decimal

/-- The number `digits * 10 ^ exponent`. -/
structure Literal where
  digits : Nat
  exponent : Int
deriving DecidableEq, Repr

/-- Which of two equally near neighbours is taken. -/
inductive TieRule where
  | toEven
  | upward
deriving DecidableEq, Repr

/-- A positive binary number in multiples of `10 ^ exponent`: `value / unit` is the exact value,
and the numbers from `low / unit` to `high / unit` round to it, ends included only if `closed`. -/
structure Window where
  low : Nat
  value : Nat
  high : Nat
  unit : Nat
  closed : Bool

/-- A binary number seen on the grid of multiples of `10 ^ exponent`.  The ends lie half-way to
the neighbouring doubles, and belong to the window if the mantissa is even. -/
def Binary.window (b : Binary) (exponent : Int) : Window :=
  let (twos, halves) := powerRatio 2 (b.exponent - 2)
  let (tens, tenths) := powerRatio 10 exponent
  let quarter := twos * tenths
  { low := (4 * b.mantissa - if b.lowGapHalved then 1 else 2) * quarter
    value := 4 * b.mantissa * quarter
    high := (4 * b.mantissa + 2) * quarter
    unit := halves * tens
    closed := b.mantissa % 2 == 0 }

/-- Whether a point of the grid rounds to the number of the window. -/
def Window.admits (w : Window) (point : Nat) : Bool :=
  if w.closed then w.low ≤ point * w.unit && point * w.unit ≤ w.high
  else w.low < point * w.unit && point * w.unit < w.high

/-- The positive point of the grid that rounds to the number of the window and is nearest to it. -/
def Window.nearest? (w : Window) (tie : TieRule) : Option Nat :=
  let below := w.value / w.unit
  let above := below + 1
  match 0 < below && w.admits below, w.admits above with
  | false, false => none
  | true, false => some below
  | false, true => some above
  | true, true =>
    match compare (2 * w.value) ((below + above) * w.unit), tie with
    | .lt, _ => some below
    | .gt, _ => some above
    | .eq, .toEven => some (if below % 2 == 0 then below else above)
    | .eq, .upward => some above

/-- The first decimal found on grids that get finer by one place at each of the given steps. -/
def Binary.search (b : Binary) (tie : TieRule) : Nat → Int → Literal
  | 0, exponent => ⟨(b.window exponent).value / (b.window exponent).unit, exponent⟩
  | steps + 1, exponent =>
    match (b.window exponent).nearest? tie with
    | some digits => ⟨digits, exponent⟩
    | none => b.search tie steps (exponent - 1)

/-- The shortest decimal that rounds to a binary number.  The search starts above the number's
decimal order, by the bound `log 2 < 0.30103`, and ends on the grid of seventeen digits at the
latest. -/
def Binary.shortest (b : Binary) (tie : TieRule) : Literal :=
  if b.mantissa = 0 then ⟨0, 0⟩
  else
    let order := (b.mantissa.log2 + 1 + b.exponent) * 30103 / 100000 + 2
    b.search tie 22 order

end Wilderness.Decimal
