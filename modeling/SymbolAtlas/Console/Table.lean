import SymbolAtlas.Text.Screen

/-
  Tables and panels drawn with lines.

  The columns of a table are as wide as their widest cell. If
  the table does not fit, its widest columns are narrowed. A
  panel is a box as wide as the screen.

  Key definitions:
    * `Table`, `Table.render`
    * `Panel`, `Panel.render`
-/

------------------------------------------------------------
-- Widths
------------------------------------------------------------

namespace SymbolAtlas

/- A title, the names of the columns, and the rows. -/
structure Table where
  title : String
  header : List String
  rows : List (List String)
deriving DecidableEq, Repr

namespace Table

/- The columns that a cell needs with a blank on each side. -/
def cellWidth (cell : String) : Nat :=
  Screen.extent cell + 2

/- The widths that the columns would like to have. -/
def naturalWidths (t : Table) : List Nat :=
  (List.range t.header.length).map fun i =>
    ((t.header :: t.rows).map fun row =>
      cellWidth (row.getD i "")).foldl max 0

/- Half of a number, the half of an odd one going to even. -/
def evenHalf (n : Nat) : Nat :=
  let half := n / 2
  if n % 2 = 0 then half
  else if half % 2 = 0 then half
  else half + 1

/-
  Take some columns from two widths. Only the wider one gives,
  down to the other; equal ones give one after the other.
-/
def narrowed (room : Nat) (a b : Nat) : Nat × Nat :=
  let excess := a + b - room
  if a = b then
    let first := min a (evenHalf excess)
    (a - first, b - min b (excess - first))
  else
    let step := min excess (max a b - min a b)
    let (a, b) := if a < b then (a, b - step) else (a - step, b)
    let excess := a + b - room
    let first := evenHalf excess
    (a - first, b - (excess - first))

/- The widths that the columns get. -/
def widths (room : Nat) (t : Table) : List Nat :=
  match t.naturalWidths.map (min room) with
  | [a, b] =>
      if a + b ≤ room then [a, b]
      else
        let (a, b) := narrowed room a b
        [a, b]
  | other => other

end Table

end SymbolAtlas

------------------------------------------------------------
-- Drawing Tables
------------------------------------------------------------

namespace SymbolAtlas

namespace Table

/- A line that runs through the table. -/
def rule (left line cross right : Char) (widths : List Nat) :
    List Char :=
  let parts := widths.map (List.replicate · line)
  left :: [cross].intercalate parts ++ [right]

/- The lines of a cell, all of one width. -/
def cellLines (width : Nat) (cell : String) :
    List (List Char) :=
  let room := width - 2
  (Screen.wrap .ellipsis room cell).map fun line =>
    ' ' :: Screen.padded room line ++ [' ']

/- The lines of a row. A short cell is followed by blanks. -/
def rowLines (bar : Char) (widths : List Nat)
    (row : List String) : List (List Char) :=
  let cells := (widths.zip row).map fun (w, cell) =>
    (w, cellLines w cell)
  let height := (cells.map (·.2.length)).foldl max 1
  (List.range height).map fun i =>
    bar :: [bar].intercalate (cells.map fun (w, lines) =>
      lines.getD i (Screen.blanks w)) ++ [bar]

/- The lines of a table on a screen of some columns. -/
def render (screen : Nat) (t : Table) : List (List Char) :=
  let frame := t.header.length + 1
  let widths := t.widths (screen - frame)
  let total := widths.foldl (· + ·) frame
  Screen.centred total t.title.toList ::
    rule '┏' '━' '┳' '┓' widths ::
    rowLines '┃' widths t.header ++
    rule '┡' '━' '╇' '┩' widths ::
    t.rows.flatMap (rowLines '│' widths) ++
    [rule '└' '─' '┴' '┘' widths]

end Table

end SymbolAtlas

------------------------------------------------------------
-- Panels
------------------------------------------------------------

namespace SymbolAtlas

/- A box with a title and a text. -/
structure Panel where
  title : String
  text : String
deriving DecidableEq, Repr

namespace Panel

def line (n : Nat) : List Char :=
  List.replicate n '─'

/- The upper edge, with the title in the middle. -/
def top (width : Nat) (title : List Char) : List Char :=
  let label := ' ' :: title ++ [' ']
  let free := width - 2 - Width.ofText label
  '╭' :: line (free / 2) ++ label ++ line (free - free / 2) ++ ['╮']

/- The lines of a panel on a screen of some columns. -/
def render (screen : Nat) (p : Panel) : List (List Char) :=
  let room := screen - 4
  let body := (Screen.wrap .fold room p.text).map fun part =>
    '│' :: ' ' :: Screen.padded room part ++ [' ', '│']
  top screen p.title.toList :: body ++
    ['╰' :: line (screen - 2) ++ ['╯']]

end Panel

end SymbolAtlas
