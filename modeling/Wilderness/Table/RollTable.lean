import Wilderness.Dice.Rolling
import Wilderness.Table.Flaw

/-!
# Roll tables

A roll table has a row for every face of its die.  Its rows tile the faces: in order, without gap
and without overlap.  `RollTable.ofRows` sorts any rows and refuses those that do not tile;
`sweep_eq_none_iff` says that it refuses no others.  A roll is looked up by halving.
-/

namespace Wilderness

/-- A row: the rolls from `low` to `high` lead to `value`. -/
structure Row (α : Type) where
  low : UInt32
  high : UInt32
  value : α
deriving DecidableEq, Repr

namespace Row

variable {α : Type}

/-- Whether a roll selects the row. -/
def contains (row : Row α) (roll : UInt32) : Bool :=
  row.low ≤ roll && roll ≤ row.high

/-- The range of the row in print. -/
def label (row : Row α) : String :=
  rangeLabel row.low row.high

end Row

/-- Rows that follow one another without gap or overlap, from the roll `first` to the roll
`last`. -/
def Tiles {α : Type} (first : Nat) : List (Row α) → Nat → Prop
  | [], last => first = last + 1
  | row :: rows, last =>
    row.low.toNat = first ∧ row.low ≤ row.high ∧ Tiles (row.high.toNat + 1) rows last

instance Tiles.decidable {α : Type} :
    (first : Nat) → (rows : List (Row α)) → (last : Nat) → Decidable (Tiles first rows last)
  | first, [], last => inferInstanceAs (Decidable (first = last + 1))
  | first, row :: rows, last =>
    have := Tiles.decidable (row.high.toNat + 1) rows last
    inferInstanceAs (Decidable (row.low.toNat = first ∧ row.low ≤ row.high ∧
      Tiles (row.high.toNat + 1) rows last))

/-- A table that is rolled on a die. -/
structure RollTable (α : Type) where
  name : String
  die : Die
  /-- The rows in the order of their rolls. -/
  rows : List (Row α)
  sides_pos : 0 < die.sides
  tiled : Tiles 1 rows die.sides.toNat
deriving DecidableEq

/-- A roll that no row of a table has. -/
structure OffTable where
  table : String
  roll : UInt32
deriving DecidableEq, Repr

/-- The miss in words. -/
def OffTable.message (miss : OffTable) : String :=
  "roll " ++ miss.roll.toNat.repr ++ " is outside table '" ++ miss.table ++ "'"

/-! ## Building -/

section Building

variable {α : Type}

/-- A row put in front of the first row that does not begin below it. -/
def insertRow (row : Row α) : List (Row α) → List (Row α)
  | [] => [row]
  | next :: rows => if row.low ≤ next.low then row :: next :: rows else next :: insertRow row rows

/-- Rows in the order of their first rolls; rows with the same first roll keep their order. -/
def sortRows (rows : List (Row α)) : List (Row α) :=
  rows.foldr insertRow []

/-- The first defect of sorted rows, of which the next has to begin at `expected`.  This number is
not held to a word: behind a row that ends at 4294967295 it goes on, where a word has no room.  Only
a die of 4294967295 sides lets such a row pass, and tables on this one die are outside the model. -/
def sweep (die : Die) : (expected : Nat) → List (Row α) → Option Defect
  | expected, [] => if expected ≤ die.sides.toNat then some (.uncovered expected) else none
  | expected, row :: rows =>
    if row.high < row.low then some (.emptyRange row.low row.high)
    else if row.low = 0 then some .startsAtZero
    else if row.low.toNat < expected then some (.overlap row.low row.high)
    else if expected < row.low.toNat then some (.uncovered expected)
    else if die.sides < row.high then some (.exceeds row.low row.high die)
    else sweep die (row.high.toNat + 1) rows

/-- Tiles begin at most one above the last roll. -/
theorem Tiles.first_le {first last : Nat} {rows : List (Row α)} (h : Tiles first rows last) :
    first ≤ last + 1 := by
  induction rows generalizing first with
  | nil => exact Nat.le_of_eq h
  | cons row rows ih =>
    obtain ⟨hlow, hle, hrest⟩ := h
    have := ih hrest
    rw [UInt32.le_iff_toNat_le] at hle
    omega

/-- A sweep that starts at most one above the last side finds nothing exactly if the rows tile the
sides from there. -/
theorem sweep_eq_none_iff (die : Die) {expected : Nat} (rows : List (Row α))
    (pos : 0 < expected) (le : expected ≤ die.sides.toNat + 1) :
    sweep die expected rows = none ↔ Tiles expected rows die.sides.toNat := by
  induction rows generalizing expected with
  | nil =>
    simp only [sweep, Tiles]
    split <;> simp_all <;> omega
  | cons row rows ih =>
    simp only [sweep, Tiles, UInt32.lt_iff_toNat_lt, UInt32.le_iff_toNat_le, ← UInt32.toNat_inj,
      UInt32.toNat_zero]
    split
    · simp; omega
    split
    · simp; omega
    split
    · simp; omega
    split
    · simp; omega
    split
    · next beyond =>
      simp only [reduceCtorEq, false_iff]
      intro h
      have := h.2.2.first_le
      omega
    · rw [ih (by omega) (by omega)]
      constructor
      · exact fun h => ⟨by omega, by omega, h⟩
      · exact fun h => h.2.2

namespace RollTable

/-- The table of rows given in any order.  A die of 4294967295 sides is outside the model; see
`sweep`. -/
def ofRows (name : String) (die : Die) (rows : List (Row α)) : Except Flaw (RollTable α) :=
  if sides : die.sides = 0 then .error ⟨name, .noSides⟩
  else
    match swept : sweep die 1 (sortRows rows) with
    | some defect => .error ⟨name, defect⟩
    | none =>
      .ok {
        name, die
        rows := sortRows rows
        sides_pos := UInt32.pos_iff_ne_zero.2 sides
        tiled := (sweep_eq_none_iff die _ (by decide) (by omega)).1 swept }

/-- The table of rows that are seen to tile its die. -/
def ofTiles (name : String) (die : Die) (rows : List (UInt32 × UInt32 × α))
    (sides_pos : 0 < die.sides := by decide)
    (tiled : Tiles 1 (rows.map fun (low, high, value) => ⟨low, high, value⟩) die.sides.toNat := by
      decide) : RollTable α where
  name := name
  die := die
  rows := rows.map fun (low, high, value) => ⟨low, high, value⟩
  sides_pos := sides_pos
  tiled := tiled

/-- The values of all rows. -/
def values (table : RollTable α) : List α :=
  table.rows.map Row.value

end RollTable

end Building

/-! ## Rolling -/

section Lookup

variable {α : Type}

/-- The place of the first of the rows from `low` on, and before `high`, that does not end below a
roll, found by halving so many times. -/
def halve (rows : Array (Row α)) (roll : UInt32) : (steps low high : Nat) → Nat
  | 0, low, _ => low
  | steps + 1, low, high =>
    if low < high then
      let middle := (low + high) / 2
      match rows[middle]? with
      | some row =>
        if row.high < roll then halve rows roll steps (middle + 1) high
        else halve rows roll steps low middle
      | none => low
    else low

/-- The place of the first row that does not end below a roll. -/
def partitionPoint (rows : Array (Row α)) (roll : UInt32) : Nat :=
  halve rows roll rows.size 0 rows.size

namespace RollTable

/-- The value that a roll leads to. -/
def lookup? (table : RollTable α) (roll : UInt32) : Option α :=
  let rows := table.rows.toArray
  (rows[partitionPoint rows roll]?.filter (·.contains roll)).map Row.value

/-- The value that a roll leads to, or the miss. -/
def lookup (table : RollTable α) (roll : UInt32) : Except OffTable α :=
  match table.lookup? roll with
  | some value => .ok value
  | none => .error ⟨table.name, roll⟩

/-- A roll of the table's die and the value that it leads to. -/
def roll (table : RollTable α) : Rolling OffTable (UInt32 × α) := do
  let roll ← .face table.die
  let value ← .ofExcept (table.lookup roll)
  return (roll, value)

end RollTable

end Lookup

end Wilderness
