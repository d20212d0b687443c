import ElfLoader.Text.Styled

/-!
# Tables of text

An `ElfLoader.TextTable` has columns as wide as their widest cells. The cells are styled
text, and a column has room for their escape sequences too (`ElfLoader.Cell.room`). A cell
has one blank on its right, and on its left too unless it is in the first column; the cells
of a column are aligned on one side (`ElfLoader.TextTable.render`). Titles can be put above
the columns, and an explanation of them below the table
(`ElfLoader.TextTable.lines`).
-/

namespace ElfLoader

/-- The side that the cells of a column are aligned on. -/
inductive Side where
  | left
  | right
  deriving DecidableEq, Repr, Inhabited

/-- A column of a table. -/
structure Column where
  /-- What is above it. -/
  title : String
  /-- The side that its cells are aligned on. -/
  side : Side
  /-- What is in it. -/
  help : String
  deriving DecidableEq, Repr, Inhabited

/-! ### Cells -/

/-- Something in a table. -/
structure Cell where
  /-- What is seen of it. -/
  text : String
  /-- The places that it needs. -/
  room : Nat
  deriving DecidableEq, Repr, Inhabited

namespace Cell

/-- A cell of styled text. An empty one is shown as a blank. -/
def styled (text : String) : Cell :=
  let shown := if text.isEmpty then " " else text
  ⟨Styled.visible shown, Styled.room shown⟩

/-- A cell of text without a style. -/
def plain (text : String) : Cell := ⟨text, Width.ofText .narrow text⟩

/-- A cell in a column, filled up with blanks on the side that it is not aligned on. -/
def fill (side : Side) (width : Nat) (cell : Cell) : String :=
  let rest := Styled.blanks (width - cell.room)
  match side with
  | .left => cell.text ++ rest
  | .right => rest ++ cell.text

end Cell

/-! ### Tables -/

/-- A table of text. -/
structure TextTable where
  /-- The columns. -/
  columns : List Column
  /-- The rows, with one text for each column. -/
  rows : List (List String)
  deriving DecidableEq, Repr, Inhabited

namespace TextTable

/-- Cells in a line, with the blanks around them. -/
def joinCells : List String → String
  | [] => ""
  | first :: rest => first ++ " " ++ String.join (rest.map fun cell => " " ++ cell ++ " ")

/-- The width of the column at a position. -/
def columnWidth (rows : List (List Cell)) (position : Nat) : Nat :=
  ((rows.map fun row => (row[position]?).elim 0 Cell.room).max?).getD 0

/-- A row in columns of the given sides and widths. -/
def renderRow (layout : List (Side × Nat)) (row : List Cell) : String :=
  joinCells (List.zipWith (fun column cell => Cell.fill column.1 column.2 cell) layout row)

/-- Rows as lines of text. A table without rows is one empty line. -/
def render (sides : List Side) (rows : List (List Cell)) : List String :=
  let layout := sides.zipIdx.map fun side => (side.1, columnWidth rows side.2)
  if rows.isEmpty then [""] else rows.map (renderRow layout)

/-- A line below a title. -/
def rule (title : String) : String := String.ofList (List.replicate title.length '-')

/-- What is in the columns. -/
def legend (helps : List (String × String)) : List String :=
  "" :: helps.map fun help => help.1 ++ ": " ++ help.2

/-- **The lines of a table**, with titles and with an explanation if they are wanted. -/
def lines (t : TextTable) (titles explain : Bool) : List String :=
  let names := t.columns.map (·.title)
  let top := if titles then [names, names.map rule] else []
  render (t.columns.map (·.side)) ((top ++ t.rows).map (·.map Cell.styled)) ++
    if explain then legend (t.columns.map fun c => (c.title, c.help)) else []

end TextTable

/-! ### Lists of facts -/

/-- Something known, under a name. -/
structure Fact where
  /-- The name. -/
  name : String
  /-- What is known. -/
  value : String
  /-- What that means. -/
  help : String
  deriving DecidableEq, Repr, Inhabited

/-- The lines of a list of facts, with an explanation if it is wanted. -/
def Fact.lines (facts : List Fact) (explain : Bool) : List String :=
  TextTable.render [.left, .left] (facts.map fun f => [Cell.plain f.name, Cell.styled f.value]) ++
    if explain then TextTable.legend (facts.map fun f => (f.name, f.help)) else []

end ElfLoader
