/-!
# Entries of encounter tables

A row of an encounter table ends the search with the name of a monster or sends it on to a
sub-table.
-/

namespace Wilderness

/-- What a row of an encounter table leads to. -/
inductive Entry where
  /-- The monster or family of this name. -/
  | monster (name : String)
  /-- One more roll, on the sub-table of this name. -/
  | subTable (name : String)
deriving DecidableEq, Repr

namespace Entry

/-- Whether no sub-table follows. -/
def isTerminal : Entry → Bool
  | monster _ => true
  | subTable _ => false

/-- The entry as it is printed in a table. -/
def render : Entry → String
  | monster name => name
  | subTable name => name ++ " (sub-table)"

end Entry

end Wilderness
