import Pushdown.Text.Search

/-!
# Text tables

A table has a row of headings and rows of cells. A column is as wide as its widest line;
cells stand at the left, with one blank on each side, and may have several lines.

## Operations

* `Table.widths`: the width of each column;
* `Table.lines`: the lines of a table;
* `Table.render`: its text.
-/

namespace Pushdown

/-- A table of texts. -/
structure Table where
  headings : List String
  rows : List (List String)

/-- The lines of a cell. -/
def cellLines (cell : String) : List (List Char) := Text.splitOn '\n' cell.toList

/-- The width of the widest line. -/
def cellWidth (cell : String) : Nat := (cellLines cell).foldl (fun w line => max w line.length) 0

/-- Characters padded at the right end. -/
def padded (width : Nat) (line : List Char) : List Char :=
  line ++ List.replicate (width - line.length) ' '

/-- The larger width in each column. -/
def widen : List Nat → List String → List Nat
  | width :: widths, cell :: cells => max width (cellWidth cell) :: widen widths cells
  | widths, [] => widths
  | [], cells => cells.map cellWidth

/-- One text line of a row of cells. -/
def rowLine (widths : List Nat) (cells : List (List (List Char))) (i : Nat) : String :=
  let column (width : Nat) (cell : List (List Char)) : String :=
    " " ++ String.ofList (padded width (cell[i]?.getD [])) ++ " "
  "|" ++ "|".intercalate (List.zipWith column widths cells) ++ "|"

/-- The lines of a row of cells. -/
def rowLines (widths : List Nat) (cells : List String) : List String :=
  let cells := cells.map cellLines
  let height := cells.foldl (fun h cell => max h cell.length) 0
  (List.range height).map (rowLine widths cells)

/-- A rule under or between rows: its ends, its joints, and what it is drawn with. -/
def rule (ending joint : String) (stroke : Char) (widths : List Nat) : String :=
  let strokes (width : Nat) := String.ofList (List.replicate (width + 2) stroke)
  ending ++ joint.intercalate (widths.map strokes) ++ ending

namespace Table

/-- The width of each column. -/
def widths (table : Table) : List Nat := (table.headings :: table.rows).foldl widen []

/-- The lines of the rows, with a rule between each two. -/
def bodyLines (widths : List Nat) : List (List String) → List String
  | [] => []
  | [row] => rowLines widths row
  | row :: rows => rowLines widths row ++ rule "|" "+" '-' widths :: bodyLines widths rows

/-- The lines of a table. -/
def lines (table : Table) : List String :=
  let widths := table.widths
  let border := rule "+" "+" '-' widths
  border :: rowLines widths table.headings ++
    rule "+" "=" '=' widths :: bodyLines widths table.rows ++ [border]

/-- The text of a table. -/
def render (table : Table) : String := "\n".intercalate table.lines

end Table
end Pushdown
