import FramedIpc.Text.Columns

/-!
# Tables

A table for a terminal, with a heading above a double rule and lines drawn
around everything. A column is as wide as its widest cell with a space on
either side. A cell may have several lines; its row is then as high as its
highest cell.

## Main definitions

* `Table`: A heading and rows under it.
* `Table.text`: The drawn table.
-/

namespace FramedIpc.Text

/-- A heading and rows under it, all of the same number of cells. -/
structure Table where
  heading : List String
  rows : List (List String)

namespace Table

/-- The lines of a cell. -/
def cellLines (cell : String) : List String :=
  (cell.toList.splitOn '\n').map String.ofList

/-- The width that the lines of a cell take. -/
def cellWidth (cell : String) : Nat :=
  ((cellLines cell).map columns).foldl max 0

/-- The widths of columns that have room for another row. -/
def widen : List Nat → List String → List Nat
  | [], cells => cells.map cellWidth
  | widths, [] => widths
  | width :: widths, cell :: cells => max width (cellWidth cell) :: widen widths cells

/-- The widths of a table's columns. -/
def widths (table : Table) : List Nat :=
  table.rows.foldl widen (widen [] table.heading)

/-- A rule from one corner to another, with a mark between columns. -/
def rule (widths : List Nat) (left line mark right : Char) : String :=
  let bars := widths.map fun width => String.ofList (List.replicate (width + 2) line)
  left.toString ++ mark.toString.intercalate bars ++ right.toString

/-- One line of a row. -/
def rowLine (widths : List Nat) (cells : List (List String)) (index : Nat) : String :=
  let padded := (widths.zip cells).map fun (width, lines) =>
    " " ++ padTo width ((lines[index]?).getD "") ++ " "
  "│" ++ "┆".intercalate padded ++ "│"

/-- The lines of a row. -/
def rowLines (widths : List Nat) (row : List String) : List String :=
  let cells := row.map cellLines
  let height := (cells.map List.length).foldl max 0
  (List.range height).map (rowLine widths cells)

/-- The rows with a rule between any two. -/
def body (widths : List Nat) : List (List String) → List String
  | [] => []
  | [row] => rowLines widths row
  | row :: rows => rowLines widths row ++ rule widths '├' '╌' '┼' '┤' :: body widths rows

/-- The drawn table, without a line break at its end. -/
def text (table : Table) : String :=
  let widths := table.widths
  "\n".intercalate
    (rule widths '┌' '─' '┬' '┐' :: rowLines widths table.heading
      ++ rule widths '╞' '═' '╪' '╡' :: body widths table.rows
      ++ [rule widths '└' '─' '┴' '┘'])

end Table

end FramedIpc.Text
