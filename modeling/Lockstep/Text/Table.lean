import Lockstep.Text.Lines
import Lockstep.Text.Width

/-!
# Tables

A table is drawn with a line of dashes above its first row and below each of its rows.  All cells
of a column are as wide as the widest of them, with a blank on each side, and their text stands at
the left.  A cell may have several lines.
-/

namespace Lockstep.Text

/-- A line without a carriage return at its end. -/
def withoutReturn (line : List Char) : List Char :=
  if line.getLast? = some '\r' then line.dropLast else line

/-- The lines of a cell.  A carriage return before a break belongs to the break. -/
def cellLines (cs : List Char) : List (List Char) :=
  let ls := linesBy (· == '\n') cs
  if cs.getLast? = some '\n' then ls.map withoutReturn
  else ls.dropLast.map withoutReturn ++ ls.getLast?.toList

/-- A line of a cell with the columns that it takes. -/
structure CellLine where
  text : List Char
  width : Nat

namespace CellLine

/-- A line without text. -/
def blank : CellLine := ⟨[], 0⟩

/-- A line that is measured. -/
def ofText (text : List Char) : Except Fault CellLine :=
  (Text.width text).map fun w => ⟨text, w⟩

/-- A line with blanks behind it. -/
def padded (size : Nat) (line : CellLine) : List Char :=
  line.text ++ List.replicate (size - line.width) ' '

end CellLine

/-- A row of a table: the lines of its cells. -/
abbrev TableRow : Type := List (List CellLine)

/-- The rows of a table, the heading first. -/
structure Table where
  rows : List TableRow

namespace Table

/-- The table whose cells have the given texts, if all of them can be lined up. -/
def ofTexts (rows : List (List String)) : Except Fault Table := do
  return ⟨← rows.mapM fun row => row.mapM fun cell => (cellLines cell.toList).mapM CellLine.ofText⟩

/-- The greatest of some numbers, or zero if there are none. -/
def greatest (ns : List Nat) : Nat :=
  ns.foldl max 0

/-- The columns of a table. -/
def columns (t : Table) : Nat :=
  greatest (t.rows.map (·.length))

/-- The width of a column. -/
def columnWidth (t : Table) (column : Nat) : Nat :=
  greatest (t.rows.map fun row => greatest ((row.getD column []).map (·.width)))

/-- The widths of all columns. -/
def widths (t : Table) : List Nat :=
  (List.range t.columns).map t.columnWidth

/-- The line between two rows. -/
def rule (widths : List Nat) : List Char :=
  '+' :: widths.flatMap fun w => List.replicate (w + 2) '-' ++ ['+']

/-- One line of the cells of a row. -/
def cellLine (widths : List Nat) (row : TableRow) (line : Nat) : List Char :=
  '|' :: widths.zipIdx.flatMap fun (w, column) =>
    ' ' :: ((row.getD column []).getD line .blank).padded w ++ [' ', '|']

/-- The lines of a row. -/
def rowLines (widths : List Nat) (row : TableRow) : List (List Char) :=
  (List.range (greatest (row.map (·.length)))).map (cellLine widths row)

/-- The lines of a table. -/
def drawn (t : Table) : List (List Char) :=
  let ws := t.widths
  rule ws :: t.rows.flatMap fun row => rowLines ws row ++ [rule ws]

/-- A table as a text in which every line is ended. -/
def text (t : Table) : String :=
  String.ofList (t.drawn.flatMap (· ++ ['\n']))

example : ((ofTexts [["A", "Bc"], ["1", ""]]).map text).toOption =
    some "+---+----+\n| A | Bc |\n+---+----+\n| 1 |    |\n+---+----+\n" := by decide +kernel

end Table

end Lockstep.Text
