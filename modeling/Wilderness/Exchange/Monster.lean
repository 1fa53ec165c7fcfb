import Wilderness.Encounter
import Wilderness.Exchange.Table

/-!
# Monsters and encounters in JSON

The worth of a leader is read from an object only.
-/

namespace Wilderness.Exchange

/-- The worth of a leader from the members of an object. -/
def decodeLeader (members : List (String × Json)) : Except DecodeError Worth := do
  let entourage ← field? members "entourage"
  let level ← field? members "level"
  let retainer ← field? members "retainer"
  return .leader (← present level) (← present entourage) (← present retainer)

instance : Exchange Worth where
  encode
    | .each hitDice => tagged "PerIndividual" hitDice
    | .leader level entourage retainer => .object [("Leader", .object
        [("level", encode level), ("entourage", encode entourage), ("retainer", encode retainer)])]
  decode value :=
    match alternative? value with
    | some ("PerIndividual", some hitDice) => (decode hitDice).map .each
    | some ("Leader", some (.object members)) => decodeLeader members
    | _ => .error .shape

instance : Exchange Monster where
  encode monster := .object
    [("name", encode monster.name), ("number", encode monster.number),
      ("hit_dice", encode monster.hitDice), ("ehd", encode monster.worth)]
  decode
    | .object members => do
      let worth ← field? members "ehd"
      let hitDice ← field? members "hit_dice"
      let name ← field? members "name"
      let number ← field? members "number"
      return {
        name := ← present name, number := ← present number
        hitDice := ← present hitDice, worth := ← present worth }
    | .array [name, number, hitDice, worth] => do
      return {
        name := ← decode name, number := ← decode number
        hitDice := ← decode hitDice, worth := ← decode worth }
    | _ => .error .shape

instance : Exchange Listing where
  encode
    | .single monster => tagged "Single" monster
    | .family variants => tagged "Family" variants
  decode value :=
    match alternative? value with
    | some ("Single", some monster) => (decode monster).map .single
    | some ("Family", some variants) => (decode variants).map .family
    | _ => .error .shape

instance : Exchange Encounter where
  encode encounter := .object
    [("terrain", encode encounter.terrain), ("monster", encode encounter.monster),
      ("quantity", encode encounter.quantity), ("total_ehd", encode encounter.total)]
  decode
    | .object members => do
      let monster ← field? members "monster"
      let quantity ← field? members "quantity"
      let terrain ← field? members "terrain"
      let total ← field? members "total_ehd"
      return {
        terrain := ← present terrain, monster := ← present monster
        quantity := ← present quantity, total := ← present total }
    | .array [terrain, monster, quantity, total] => do
      return {
        terrain := ← decode terrain, monster := ← decode monster
        quantity := ← decode quantity, total := ← decode total }
    | _ => .error .shape

end Wilderness.Exchange
