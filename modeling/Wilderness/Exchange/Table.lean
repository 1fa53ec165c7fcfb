import Wilderness.Exchange.Dice
import Wilderness.Table.RollTable

/-!
# Tables in JSON

A table is checked when it is read, as if it were built from its rows; it is written with its rows
in order and its die as given.
-/

namespace Wilderness.Exchange

instance : Exchange Terrain where
  encode terrain := .string terrain.name
  decode value := present ((plainAlternative? value).bind Terrain.ofName?)

instance : Exchange Entry where
  encode
    | .monster name => tagged "Monster" name
    | .subTable name => tagged "SubTable" name
  decode value :=
    match alternative? value with
    | some ("Monster", some name) => (decode name).map .monster
    | some ("SubTable", some name) => (decode name).map .subTable
    | _ => .error .shape

variable {α : Type} [Exchange α]

instance : Exchange (Row α) where
  encode row := .object
    [("low", encode row.low), ("high", encode row.high), ("value", encode row.value)]
  decode
    | .object members => do
      let high ← field? members "high"
      let low ← field? members "low"
      let value ← field? members "value"
      return { low := ← present low, high := ← present high, value := ← present value }
    | .array [low, high, value] => do
      return { low := ← decode low, high := ← decode high, value := ← decode value }
    | _ => .error .shape

/-- The table of decoded parts, or its flaw. -/
def checkTable (name : String) (die : Die) (rows : List (Row α)) :
    Except DecodeError (RollTable α) :=
  (RollTable.ofRows name die rows).mapError .flaw

instance : Exchange (RollTable α) where
  encode table := .object
    [("name", encode table.name), ("die", encode table.die), ("rows", encode table.rows)]
  decode
    | .object members => do
      let die ← field? members "die"
      let name ← field? members "name"
      let rows ← field? members "rows"
      checkTable (← present name) (← present die) (← present rows)
    | .array [name, die, rows] => do
      checkTable (← decode name) (← decode die) (← decode rows)
    | _ => .error .shape

end Wilderness.Exchange
