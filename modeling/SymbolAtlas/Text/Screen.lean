import SymbolAtlas.Text.Blank
import SymbolAtlas.Text.Width

/-
  Texts on a screen of a given width.

  A screen shows no control characters that would move about,
  and blanks instead of tabs. A line that is too long is broken
  before a word; a word that fills more than a line is folded,
  or else cut off with a mark.

  Key definitions:
    * `Screen.shown`, `Screen.untabbed`
    * `Screen.Overflow`, `Screen.breaks`
    * `Screen.wrap`
-/

------------------------------------------------------------
-- Characters
------------------------------------------------------------

namespace SymbolAtlas

namespace Screen

/- Bell, backspace, vertical tab, form feed, return. -/
def isHidden (c : Char) : Bool :=
  [0x07, 0x08, 0x0B, 0x0C, 0x0D].contains c.toNat

/- The characters of a text that are shown. -/
def shown (text : List Char) : List Char :=
  text.filter (!isHidden ·)

/- Columns between two stops of the tab. -/
def tabWidth : Nat := 8

/- So many blanks. -/
def blanks (n : Nat) : List Char :=
  List.replicate n ' '

/-
  The parts between tabs, joined again. A tab leads to the next
  stop, at least one column on.
-/
def spread : (column : Nat) → List (List Char) → List Char
| _, [] => []
| _, [part] => part
| column, part :: rest =>
    let reached := column + Width.ofText part
    let gap := tabWidth - reached % tabWidth
    part ++ blanks gap ++ spread (reached + gap) rest

/- A line with blanks instead of tabs. -/
def untabbed (line : List Char) : List Char :=
  spread 0 (line.splitOn '\t')

/- Line ends and separators, those of every script. -/
def endsLine (c : Char) : Bool :=
  c == '\n' || [0x1C, 0x1D, 0x1E, 0x85, 0x2028, 0x2029].contains c.toNat

/- The columns of the widest line between any line ends. -/
def extent (text : String) : Nat :=
  (((shown text.toList).splitOnP endsLine).map Width.ofText).foldl
    max 0

/- The lines of a text as they are shown, however long. -/
def lines (text : String) : List (List Char) :=
  ((shown text.toList).splitOn '\n').map untabbed

end Screen

end SymbolAtlas

------------------------------------------------------------
-- Cutting
------------------------------------------------------------

namespace SymbolAtlas

namespace Screen

/- A line filled up with blanks. -/
def padded (width : Nat) (line : List Char) : List Char :=
  line ++ blanks (width - Width.ofText line)

/-
  The first clusters that find room in some columns. Blanks take
  the place of one that does not.
-/
def fitting : (width : Nat) → List Width.Cluster → List Char
| 0, _ => []
| _, [] => []
| width, c :: rest =>
    if c.width ≤ width then
      c.chars ++ fitting (width - c.width) rest
    else blanks width

/- A line cut to some columns. -/
def cropped (width : Nat) (line : List Char) : List Char :=
  fitting width (Width.clusters line)

/- What happens to a word that is wider than the screen. -/
inductive Overflow where
  | fold
  | ellipsis
deriving DecidableEq, Repr

/- A line that is too wide is cut, with a mark if asked for. -/
def truncated (overflow : Overflow) (width : Nat)
    (line : List Char) : List Char :=
  if Width.ofText line ≤ width then line
  else
    match overflow with
    | .fold => cropped width line
    | .ellipsis => cropped (width - 1) line ++ ['…']

/- The parts of a word that each fill a line. -/
def foldedFrom (width : Nat) : (used : Nat) → List Width.Cluster →
    List (List Char)
| _, [] => [[]]
| used, c :: rest =>
    if used + c.width ≤ width then
      match foldedFrom width (used + c.width) rest with
      | first :: others => (c.chars ++ first) :: others
      | [] => [c.chars]
    else
      match foldedFrom width c.width rest with
      | first :: others => [] :: (c.chars ++ first) :: others
      | [] => [[], c.chars]

def folded (width : Nat) (word : List Char) : List (List Char) :=
  foldedFrom width 0 (Width.clusters word)

end Screen

end SymbolAtlas

------------------------------------------------------------
-- Breaking Lines
------------------------------------------------------------

namespace SymbolAtlas

namespace Screen

/- Blanks, a word and the blanks behind it. -/
def firstWord? (text : List Char) :
    Option (List Char × List Char) :=
  let lead := text.takeWhile Blank.isBlank
  let rest := text.dropWhile Blank.isBlank
  let word := rest.takeWhile (!Blank.isBlank ·)
  let after := rest.dropWhile (!Blank.isBlank ·)
  if word.isEmpty then none
  else
    some (lead ++ word ++ after.takeWhile Blank.isBlank,
      after.dropWhile Blank.isBlank)

/- The words of a line, each with the blanks behind it. -/
def words : (fuel : Nat) → List Char → List (List Char)
| 0, _ => []
| fuel + 1, text =>
    match firstWord? text with
    | some (word, rest) => word :: words fuel rest
    | none => []

def withoutBlanks (word : List Char) : List Char :=
  (word.reverse.dropWhile Blank.isBlank).reverse

/- How far a line is filled, and where it was broken. -/
structure Filling where
  position : Nat := 0
  used : Nat := 0
  breaks : List Nat := []

namespace Filling

/- Break before a position, unless the text begins there. -/
def breakAt (f : Filling) (position : Nat) : List Nat :=
  if position = 0 then f.breaks else f.breaks ++ [position]

/- The places where the parts of a folded word begin. -/
def starts (position : Nat) : List (List Char) → List Nat
| [] => []
| part :: rest => position :: starts (position + part.length) rest

/- Add a word. -/
def add (overflow : Overflow) (width : Nat) (f : Filling)
    (word : List Char) : Filling :=
  let size := Width.ofText (withoutBlanks word)
  let next := f.position + word.length
  if f.used + size ≤ width then
    ⟨next, f.used + Width.ofText word, f.breaks⟩
  else if width < size then
    match overflow with
    | .fold =>
        let parts := folded width word
        let places := (starts f.position parts).filter (· != 0)
        ⟨next, Width.ofText (parts.getLast?.getD []),
          f.breaks ++ places⟩
    | .ellipsis =>
        ⟨next, Width.ofText word, f.breakAt f.position⟩
  else if f.used = 0 then ⟨next, f.used, f.breaks⟩
  else ⟨next, Width.ofText word, f.breakAt f.position⟩

end Filling

/- The places where a line is broken. -/
def breaks (overflow : Overflow) (width : Nat)
    (line : List Char) : List Nat :=
  ((words (line.length + 1) line).foldl
    (Filling.add overflow width) {}).breaks

/- The parts of a line between some places. -/
def cutAt (line : List Char) : (start : Nat) → List Nat →
    List (List Char)
| start, [] => [line.drop start]
| start, place :: rest =>
    (line.take place).drop start :: cutAt line place rest

/- Blanks at the end that do not fit are dropped. -/
def trimEnd (width : Nat) (line : List Char) : List Char :=
  let tail := line.reverse.takeWhile Blank.isBlank
  let excess := line.length - width
  line.take (line.length - min tail.length excess)

/- A text on lines of at most some columns. -/
def wrap (overflow : Overflow) (width : Nat) (text : String) :
    List (List Char) :=
  (lines text).flatMap fun line =>
    (cutAt line 0 (breaks overflow width line)).map fun part =>
      truncated overflow width (trimEnd width part)

/- A text on one line, with blanks on both sides. -/
def centred (width : Nat) (text : List Char) : List Char :=
  let free := width - Width.ofText text
  blanks (free / 2) ++ text ++ blanks (free - free / 2)

end Screen

end SymbolAtlas
