/-
  Classes of characters given by their code points.

  A table is a list of ranges of code points, both ends
  included. The tables of this library are ordered and their
  ranges do not touch.

  Key definitions:
    * `Codes.Table`, `Codes.Table.contains`
-/

namespace SymbolAtlas

namespace Codes

/- Ranges of code points, both ends included. -/
abbrev Table := List (Nat × Nat)

/- The code point lies in some range of the table. -/
def Table.contains (table : Table) (c : Char) : Bool :=
  table.any fun (first, last) =>
    decide (first ≤ c.toNat) && decide (c.toNat ≤ last)

end Codes

end SymbolAtlas
