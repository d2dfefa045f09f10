import KeepAlive.Text.Digits

/-!
# Tables of text

A table has a heading, a rule and rows.  Cells are filled up to the width of their column; one that is
wider moves what follows to the right.
-/

namespace KeepAlive.CommandLine

/-- A column of a table. -/
structure Column where
  title : String
  width : Nat
  /-- Whether cells are filled up. -/
  filled : Bool := true
  deriving Repr

namespace Column

/-- A cell of a column. -/
def cell (column : Column) (content : String) : String :=
  if column.filled then Text.padRight column.width content else content

/-- The part of the rule under a title. -/
def rule (column : Column) : String :=
  String.ofList (List.replicate column.width '-')

end Column

/-- The titles over the columns; only the last one is not filled up. -/
def titles : List Column → List String
  | [] => []
  | [last] => [last.title]
  | column :: rest => Text.padRight column.width column.title :: titles rest

/-- The lines of a table. -/
def table (columns : List Column) (rows : List (List String)) : List String :=
  " | ".intercalate (titles columns) ::
    "-|-".intercalate (columns.map Column.rule) ::
    rows.map fun row => " | ".intercalate (columns.zipWith Column.cell row)

theorem length_table (columns : List Column) (rows : List (List String)) :
    (table columns rows).length = rows.length + 2 := by
  simp [table]

end KeepAlive.CommandLine
