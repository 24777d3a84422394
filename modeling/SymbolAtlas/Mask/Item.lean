/-
  The items of a mask and the texts they match.

  A mask is a list of items read from left to right. Each item
  consumes a front part of the text, and a list accepts a text
  when its items can consume all of it.

  Key definitions:
    * `Mask.CharSet`, `Mask.Item`
    * `Mask.Item.rests`, what an item can leave of a text
    * `Mask.acceptsAll`, a list of items against a whole text
-/

------------------------------------------------------------
-- Character Sets
------------------------------------------------------------

namespace SymbolAtlas

namespace Mask

/- All characters from the first to the last. -/
structure CharRange where
  first : Char
  last : Char
deriving DecidableEq, Repr

namespace CharRange

/- The range of one character. -/
def single (c : Char) : CharRange :=
  ⟨c, c⟩

def contains (r : CharRange) (c : Char) : Bool :=
  decide (r.first ≤ c) && decide (c ≤ r.last)

end CharRange

/- The characters in some range, or those in none. -/
structure CharSet where
  negated : Bool
  ranges : List CharRange
deriving DecidableEq, Repr

namespace CharSet

def contains (s : CharSet) (c : Char) : Bool :=
  s.ranges.any (·.contains c) != s.negated

end CharSet

end Mask

end SymbolAtlas

------------------------------------------------------------
-- Items
------------------------------------------------------------

namespace SymbolAtlas

namespace Mask

/- One step of a mask. -/
inductive Item where
  /- This character. -/
  | literal (c : Char)
  /- Any character but a slash. -/
  | single
  /- Any run of characters other than slashes. -/
  | run
  /- Nothing, or directories and the slash after them. -/
  | tree
  /- A character of the set. -/
  | oneOf (s : CharSet)
  /- Any run of characters of the set. -/
  | manyOf (s : CharSet)
deriving DecidableEq, Repr

/- Wildcards stop at a slash. -/
def isPlain (c : Char) : Bool :=
  c != '/'

/- What is left of a text after each run of such characters. -/
def restsOfRun (p : Char → Bool) : List Char → List (List Char)
| [] => [[]]
| c :: rest =>
    (c :: rest) :: if p c then restsOfRun p rest else []

/- What is left after each slash that no line end precedes. -/
def restsAfterSlash : List Char → List (List Char)
| [] => []
| c :: rest =>
    if c = '/' then rest :: restsAfterSlash rest
    else if c = '\n' then []
    else restsAfterSlash rest

/- What is left after at least one character and a slash. -/
def restsAfterDirectories : List Char → List (List Char)
| [] => []
| c :: rest => if c = '\n' then [] else restsAfterSlash rest

/- What is left after one such character. -/
def restsOfOne (p : Char → Bool) : List Char → List (List Char)
| [] => []
| c :: rest => if p c then [rest] else []

namespace Item

/- Everything that an item can leave of a text. -/
def rests : Item → List Char → List (List Char)
| .literal c, text => restsOfOne (· == c) text
| .single, text => restsOfOne isPlain text
| .run, text => restsOfRun isPlain text
| .tree, text => text :: restsAfterDirectories text
| .oneOf s, text => restsOfOne s.contains text
| .manyOf s, text => restsOfRun s.contains text

end Item

/- The items consume the whole text, one after the other. -/
def acceptsAll : List Item → List Char → Bool
| [], text => text.isEmpty
| item :: items, text =>
    (item.rests text).any (acceptsAll items)

end Mask

end SymbolAtlas
