/-
  Layout: panels and tables as lines of plain text.

  Widths are counted in terminal columns.  Cells are filled up with spaces to the width of the
  widest one in their column, so all lines of a table, and of a panel, are equally wide.
-/
import Tabletop.Text.Width

namespace Tabletop

namespace Terminal

/-- The controls that a terminal does not get to see. -/
def isDropped (c : Char) : Bool := [7, 8, 11, 12, 13].contains c.toNat

/-- The columns between tab stops. -/
def tabSize : Nat := 8

/-- A line with its tabs filled up to the next tab stop, `column` being where it begins. -/
def expandTabs (column : Nat) : List Char → List Char
  | [] => []
  | c :: rest =>
    if c = '\t' then
      let spaces := tabSize - column % tabSize
      List.replicate spaces ' ' ++ expandTabs (column + spaces) rest
    else c :: expandTabs (column + Text.columns c) rest

/-- The lines of a text, as a terminal shows them. -/
def linesOf (text : String) : List String :=
  let shown := text.toList.filter fun c => !isDropped c
  (shown.splitOn '\n').map fun line => String.ofList (expandTabs 0 line)

/-- A run of one character. -/
def run (n : Nat) (c : Char) : String := String.ofList (List.replicate n c)

/-- The columns that a string takes. -/
def columnsOf (s : String) : Nat := Text.width s.toList

/-- A string filled up with spaces on its right. -/
def padRight (w : Nat) (s : String) : String := s ++ run (w - columnsOf s) ' '

/-- A string filled up with spaces on its left. -/
def padLeft (w : Nat) (s : String) : String := run (w - columnsOf s) ' ' ++ s

/-- A string in the middle of a run of a character; of an odd excess the larger part is right. -/
def centre (w : Nat) (c : Char) (s : String) : String :=
  let excess := w - columnsOf s
  run (excess / 2) c ++ s ++ run (excess - excess / 2) c

/-- A panel: lines in a frame with a title. -/
def panel (w : Nat) (title : String) (body : List String) : List String :=
  let title := " ".intercalate (linesOf (title.map fun c => if c = '\n' then ' ' else c))
  ["╭─" ++ centre (w - 4) '─' (" " ++ title ++ " ") ++ "─╮"] ++
    body.map (fun line => "│ " ++ padRight (w - 4) line ++ " │") ++
    ["╰" ++ run (w - 2) '─' ++ "╯"]

/-- A column of a table: its header, whether it is aligned to the right, and its cells. -/
structure Column where
  header : String
  alignRight : Bool := false
  cells : List String

namespace Column

/-- The columns that the widest cell takes. -/
def width (column : Column) : Nat :=
  (((column.header :: column.cells).map columnsOf).max?).getD 0

/-- A cell filled up to the width of its column. -/
def fit (column : Column) (cell : String) : String :=
  if column.alignRight then padLeft column.width cell else padRight column.width cell

end Column

/-- What columns take together with the blanks beside their cells and the lines between them. -/
def totalWidth (columns : List Column) : Nat :=
  columns.foldl (fun w column => w + column.width + 3) 1

/-- The rows of columns, each a list of fitted cells. -/
def rowsOf (columns : List Column) : List (List String) :=
  let height := ((columns.map (·.cells.length)).max?).getD 0
  (List.range height).map fun i =>
    columns.map fun column => column.fit (column.cells.getD i "")

/-- A table without a frame: a header, a rule below it, and the rows. -/
def openTable (columns : List Column) : List String :=
  let line (cells : List String) : String :=
    " " ++ " ".intercalate (cells.map fun cell => " " ++ cell ++ " ") ++ " "
  let total := totalWidth columns
  [run total ' ', line (columns.map fun column => column.fit column.header),
    " " ++ run (total - 2) '─' ++ " "] ++
    (rowsOf columns).map line ++ [run total ' ']

/-- A table in a rounded frame, under a title. -/
def framedTable (title : String) (columns : List Column) : List String :=
  let line (cells : List String) : String :=
    "│" ++ "│".intercalate (cells.map fun cell => " " ++ cell ++ " ") ++ "│"
  let rule (left middle right : String) : String :=
    left ++ middle.intercalate (columns.map fun column => run (column.width + 2) '─') ++ right
  let total := totalWidth columns
  [centre total ' ' title, rule "╭" "┬" "╮",
    line (columns.map fun column => column.fit column.header), rule "├" "┼" "┤"] ++
    (rowsOf columns).map line ++ [rule "╰" "┴" "╯"]

end Terminal

end Tabletop
