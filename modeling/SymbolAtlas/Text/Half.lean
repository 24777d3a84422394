/-
  Halves of characters.

  A character beyond the basic plane can be written as two units
  of sixteen bits, the high half and the low half. A half that
  stands alone is no character, so no text holds one. Strings of
  letters may hold halves, and where such a string is read as a
  text, each half becomes the character that stands in for it.

  Key definitions:
    * `Half`, `Half.isHigh`
    * `Half.joined`, the character of two halves
    * `Half.highUnit`, `Half.lowUnit`, the halves of a character
    * `Letter`, `Letter.ofUnit`
    * `Letter.merged`, `Letter.toChar`
-/

------------------------------------------------------------
-- Halves
------------------------------------------------------------

namespace SymbolAtlas

/- Half of a character: one of the units that stand in pairs. -/
structure Half where
  unit : Nat
  isHalf : 0xD800 ≤ unit ∧ unit < 0xE000
deriving DecidableEq, Repr

namespace Half

/- The half stands in front of the other. -/
def isHigh (h : Half) : Bool :=
  decide (h.unit < 0xDC00)

/- The character of two halves that belong together. -/
def joined (high low : Half) : Char :=
  Char.ofNat
    (0x10000 + (high.unit - 0xD800) * 0x400 + (low.unit - 0xDC00))

/- The halves of a character beyond the basic plane. -/
def highUnit (c : Char) : Nat :=
  0xD800 + (c.toNat - 0x10000) / 0x400

def lowUnit (c : Char) : Nat :=
  0xDC00 + (c.toNat - 0x10000) % 0x400

/- How far a half is from the character that stands in for it. -/
def distance : Nat := 0xD0000

/-
  The character that stands in for a half, one of a plane that
  no characters are assigned in.
-/
def standIn (h : Half) : Char :=
  Char.ofNat (h.unit + distance)

end Half

end SymbolAtlas

------------------------------------------------------------
-- Letters
------------------------------------------------------------

namespace SymbolAtlas

/- A character, or half of one that stands by itself. -/
inductive Letter where
  | char (c : Char)
  | half (h : Half)
deriving DecidableEq, Repr

namespace Letter

/- The letter of one unit of sixteen bits. -/
def ofUnit (unit : Nat) : Letter :=
  if hHalf : 0xD800 ≤ unit ∧ unit < 0xE000 then .half ⟨unit, hHalf⟩
  else .char (Char.ofNat unit)

/- A high half and the low one behind it are one character. -/
def merged : List Letter → List Letter
| [] => []
| .half high :: .half low :: rest =>
    if high.isHigh && !low.isHigh then
      .char (Half.joined high low) :: merged rest
    else .half high :: merged (.half low :: rest)
| letter :: rest => letter :: merged rest

/- The character that a letter is read as. -/
def toChar : Letter → Char
| .char c => c
| .half h => h.standIn

end Letter

end SymbolAtlas
