import Wilderness.Dice.Throw

/-!
# Mean values of throws

The mean value of a throw, over any kind of number that has the four operations.  A multiplied
throw has a closed formula.  Bands do not commute with means, so a throw in bands takes the mean
over the distribution of its sums, or an estimate from the mean sum if it is too large for that.
-/

namespace Wilderness.Throw

section Numbers

variable {K : Type} [Add K] [Sub K] [Mul K] [Div K] (number : Int → K)

/-- The distribution of a sum after one more die: entry `s` adds up the entries `s - sides` to
`s - 1` of the distribution before, each times the chance of one face. -/
@[specialize] def addDie (sides : Nat) (chances : Array K) : Array K :=
  let face := number 1 / number sides
  let shares := chances.map (· * face)
  Array.ofFn fun sum : Fin (chances.size + sides) =>
    shares.foldl (· + ·) (number 0) (sum - sides) sum

/-- The chance of each sum of the faces, by the sum. -/
@[specialize] def sumDistribution (t : Throw) : Array K :=
  (List.range t.count.toNat).foldl (fun chances _ => addDie number t.sides.toNat chances) #[number 1]

/-- The mean over the distribution of sums, given the value of each sum. -/
@[specialize] def distributionMean (t : Throw) (value : Int → Int) : K :=
  (sumDistribution number t).zipIdx.foldl
    (fun mean (chance, sum) => mean + chance * number (value sum)) (number 0)

/-- The mean value. -/
@[specialize] def meanBy (t : Throw) : Except Fault K :=
  let modifier := number t.modifier.toInt
  let raw := number t.count.toNat * (number t.sides.toNat + number 1) / number 2
  if t.isConstant then .ok modifier
  else match t.scaling with
    | .times factor => .ok (raw * number factor.toNat + modifier)
    | .bands width =>
      let n := number width.toNat
      if !t.isWithinLimits then
        .ok ((raw - number 1) / n - (n - number 1) / (number 2 * n) + number 1 + modifier)
      else if width = 0 then .error .divisionByZero
      else .ok (distributionMean number t fun sum => (t.adjust sum).toOption.getD 0)

end Numbers

/-- The mean value as a double. -/
def mean (t : Throw) : Except Fault Float :=
  t.meanBy Float.ofInt

end Wilderness.Throw
