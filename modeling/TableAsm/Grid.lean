import TableAsm.Text.Columns

/-!
Text in columns. Every column but the last is padded to its widest cell and one space more; each
row ends with a line feed.
-/
namespace TableAsm.Grid

/-- The width of a column: that of its widest cell. -/
def columnWidth (rows : List (List String)) (column : Nat) : Nat :=
  (rows.map fun row => (row[column]?.map Columns.ofText).getD 0).foldl max 0

def pad (width : Nat) (cell : String) : String :=
  cell ++ String.ofList (List.replicate (width + 1 - Columns.ofText cell) ' ')

/-- One row, given the widths of its columns. -/
def renderRow : List Nat → List String → String
  | _, [] => "\n"
  | _, [cell] => cell ++ "\n"
  | [], cell :: rest => cell ++ renderRow [] rest
  | width :: widths, cell :: rest => pad width cell ++ renderRow widths rest

/-- Rows of so many columns. -/
def render (columns : Nat) (rows : List (List String)) : String :=
  String.join (rows.map (renderRow ((List.range columns).map (columnWidth rows))))

end TableAsm.Grid
