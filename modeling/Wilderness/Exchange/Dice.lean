import Wilderness.Exchange.Basic

/-!
# Dice in JSON

A named die is its name, any other die is tagged with its sides.  A throw is its written form.
-/

namespace Wilderness.Exchange

/-- The named dice by their names. -/
def namedDice : List (String × Die) :=
  [("D4", .d4), ("D6", .d6), ("D8", .d8), ("D10", .d10), ("D12", .d12)]

/-- The named die of a name. -/
def namedDie? (name : String) : Option Die :=
  (namedDice.find? (·.1 == name)).map Prod.snd

instance : Exchange Die where
  encode
    | .d4 => .string "D4"
    | .d6 => .string "D6"
    | .d8 => .string "D8"
    | .d10 => .string "D10"
    | .d12 => .string "D12"
    | .other sides => tagged "Other" sides
  decode value :=
    match alternative? value with
    | some ("Other", some sides) => (decode sides).map .other
    | _ => present ((plainAlternative? value).bind namedDie?)

instance : Exchange Scaling where
  encode
    | .times factor => tagged "Multiply" factor
    | .bands width => tagged "Divide" width
  decode value :=
    match alternative? value with
    | some ("Multiply", some factor) => (decode factor).map .times
    | some ("Divide", some width) => (decode width).map .bands
    | _ => .error .shape

instance : Exchange Throw where
  encode t := .string t.render
  decode value := do
    let text : String ← decode value
    (Throw.parse text).mapError .written

end Wilderness.Exchange
