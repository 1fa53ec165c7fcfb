import Wilderness.Table.RollTable

/-!
# Sheets

A table as it is written down: its name, its die, and rows that lead to names.  Whether the rows
tile the die shows when the table is built.
-/

namespace Wilderness

/-- A written table. -/
structure Sheet where
  name : String
  die : Die
  /-- The first and the last roll of a row, and the name that they lead to. -/
  rows : List (UInt32 × UInt32 × String)

/-- The table of a sheet, with the values that its names stand for. -/
def Sheet.build {α : Type} (sheet : Sheet) (value : String → α) : Except Flaw (RollTable α) :=
  RollTable.ofRows sheet.name sheet.die
    (sheet.rows.map fun (low, high, name) => ⟨low, high, value name⟩)

end Wilderness
