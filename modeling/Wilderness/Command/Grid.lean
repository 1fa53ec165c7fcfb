/-!
# Grids

Tables drawn with ASCII lines.  Every column is as wide as its widest cell, with a space on both
sides, and every row is set off by a line.
-/

namespace Wilderness.Command

/-- A table of texts under column titles. -/
structure Grid where
  titles : List String
  rows : List (List String)
deriving DecidableEq, Repr

namespace Grid

/-- The width of each column, its spaces included. -/
def widths (grid : Grid) : List Nat :=
  grid.rows.foldl (fun widths row => widths.zipWith max (row.map (·.length + 2)))
    (grid.titles.map (·.length + 2))

/-- A line of one character. -/
def line (c : Char) (length : Nat) : String :=
  String.ofList (List.replicate length c)

/-- The dashes of all columns between two ends. -/
def dashes (grid : Grid) (border : String) : String :=
  border ++ "+".intercalate (grid.widths.map (line '-')) ++ border

/-- A row of cells. -/
def cells (grid : Grid) (row : List String) : String :=
  let cell (text : String) (width : Nat) : String :=
    " " ++ text ++ line ' ' (width - 1 - text.length)
  "|" ++ "|".intercalate (row.zipWith cell grid.widths) ++ "|"

/-- The double line under the titles. -/
def doubleLine (grid : Grid) : String :=
  "+" ++ line '=' (grid.widths.foldl (· + ·) 0 + (grid.widths.length - 1)) ++ "+"

/-- All lines of the table. -/
def lines (grid : Grid) : List String :=
  [grid.dashes "+", grid.cells grid.titles, grid.doubleLine] ++
    (grid.rows.map grid.cells).intersperse (grid.dashes "|") ++
    [grid.dashes "+"]

/-- The table as a text, each line with its end. -/
def render (grid : Grid) : String :=
  String.join (grid.lines.map (· ++ "\n"))

end Grid

end Wilderness.Command
