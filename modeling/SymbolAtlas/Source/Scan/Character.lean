/-
  The characters of a source text.

  A name may hold most characters outside of ASCII, but none
  beyond the basic plane. The label of a long string may hold
  them all. Octets that are no text belong to no name.

  Key definitions:
    * `Scan.isGap`, `Scan.isSpace`
    * `Scan.isNameChar`, `Scan.isLabelChar`
    * `Scan.nameLength`
-/

namespace SymbolAtlas

namespace Scan

/- Blanks between tokens. -/
def isGap (c : Char) : Bool :=
  c.isWhitespace || c == '\x0b' || c == '\x0c' ||
    c == '\u00a0' || c == '\u200b' || c == '\u2060' ||
    c == '\ufeff'

/- Blanks around the label of a long string, of any script. -/
def isSpace (c : Char) : Bool :=
  c.isWhitespace || c == '\x0b' || c == '\x0c' ||
    c == '\u1680' || (0x2000 ≤ c.toNat && c.toNat ≤ 0x2006) ||
    (0x2008 ≤ c.toNat && c.toNat ≤ 0x200A) ||
    c == '\u2028' || c == '\u2029' || c == '\u205f' ||
    c == '\u3000'

/- Ends a line. -/
def isLineEnd (c : Char) : Bool :=
  c == '\n' || c == '\r'

/- A character that a name can start with. -/
def isNameStart (c : Char) : Bool :=
  c.isAlpha || c == '_' ||
    (decide (0x80 ≤ c.toNat) && decide (c.toNat < 0x10000) &&
      !isGap c)

/- A character that a name can go on with. -/
def isNameChar (c : Char) : Bool :=
  isNameStart c || c.isDigit

/- The length of the name that a text starts with, or zero. -/
def nameLength (text : List Char) : Nat :=
  if text.head?.any isNameStart then
    (text.takeWhile isNameChar).length
  else 0

end Scan

end SymbolAtlas

------------------------------------------------------------
-- Octets That Are No Text
------------------------------------------------------------

namespace SymbolAtlas

namespace Scan

/-
  The last plane of characters, which is for private use. One
  of it that does not occur in a source stands for octets that
  are no text.
-/
def isPrivate (c : Char) : Bool :=
  decide (0x100000 ≤ c.toNat)

/- A private character that a text does not hold. -/
def foreignTo (text : List Char) : Char :=
  (((List.range (text.length + 1)).map fun n =>
    Char.ofNat (0x100000 + n)).find? (!text.contains ·)).getD
      (Char.ofNat 0x10FFFF)

/- A character of the label of a long string. -/
def isLabelChar (c : Char) : Bool :=
  c.isAlphanum || c == '_' ||
    (decide (0x80 ≤ c.toNat) && !isPrivate c)

/- What makes a dollar sign in a string begin a variable. -/
def beginsVariable (c : Char) : Bool :=
  isLabelChar c && !c.isDigit

end Scan

end SymbolAtlas
