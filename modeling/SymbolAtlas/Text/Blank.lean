import SymbolAtlas.Text.Codes

/-
  Blank characters, the ones trimmed from the ends of a text.

  Besides the blanks, tabs and line ends of every script they
  hold the four information separators.

  Key definitions:
    * `Blank.isBlank`
    * `Blank.trim`
-/

namespace SymbolAtlas

namespace Blank

/- The code points of blank characters. -/
def blanks : Codes.Table :=
  [
    (0x9, 0xD), (0x1C, 0x20), (0x85, 0x85), (0xA0, 0xA0),
    (0x1680, 0x1680), (0x2000, 0x200A), (0x2028, 0x2029),
    (0x202F, 0x202F), (0x205F, 0x205F), (0x3000, 0x3000)]

def isBlank (c : Char) : Bool :=
  blanks.contains c

/- A text without blanks at both ends. -/
def trim (text : List Char) : List Char :=
  ((text.dropWhile isBlank).reverse.dropWhile isBlank).reverse

end Blank

end SymbolAtlas
