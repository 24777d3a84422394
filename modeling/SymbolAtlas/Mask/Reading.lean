import SymbolAtlas.Mask.Item

/-
  Reading the text of a mask.

  The text is first cut into marks. Outside a class each mark
  is an item of its own. Inside a class a mark stands for
  members, and a wildcard stands for the members `[`, `^` and
  `/` and closes the class; a star also lets it repeat.

  Key definitions:
    * `Mask.marks`, the text as wildcards and characters
    * `Mask.Draft`, a class that is being read
    * `Mask.readItems`, the items or nothing at all
-/

------------------------------------------------------------
-- Marks
------------------------------------------------------------

namespace SymbolAtlas

namespace Mask

/- A wildcard, a part of a class, or a plain character. -/
inductive Mark where
  | tree
  | star
  | question
  | opening (negated : Bool)
  | closing
  | dash
  | plain (c : Char)
deriving DecidableEq, Repr

/- Cut a mask text into marks, the longest mark first. -/
def marks : List Char → List Mark
| '*' :: '*' :: '/' :: rest => .tree :: marks rest
| '*' :: rest => .star :: marks rest
| '?' :: rest => .question :: marks rest
| '[' :: '!' :: rest => .opening true :: marks rest
| '[' :: rest => .opening false :: marks rest
| ']' :: rest => .closing :: marks rest
| '-' :: rest => .dash :: marks rest
| c :: rest => .plain c :: marks rest
| [] => []

end Mask

end SymbolAtlas

------------------------------------------------------------
-- Classes
------------------------------------------------------------

namespace SymbolAtlas

namespace Mask

/-
  The members of a class read so far. The last character is
  held back while a dash may still make it the start of a
  range; `dashed` says that the dash has come.
-/
structure Draft where
  ranges : List CharRange
  last : Option Char
  dashed : Bool
deriving DecidableEq, Repr

namespace Draft

def empty : Draft :=
  ⟨[], none, false⟩

/- All ranges, with the character that was held back. -/
def settled (d : Draft) : List CharRange :=
  match d.last with
  | some c => d.ranges ++ [.single c]
  | none => d.ranges

/- One more character; a range may not run backwards. -/
def member? (d : Draft) (c : Char) : Option Draft :=
  match d.last, d.dashed with
  | some first, true =>
      if first ≤ c then
        some ⟨d.ranges ++ [⟨first, c⟩], none, false⟩
      else none
  | _, _ => some ⟨d.settled, some c, false⟩

/- Several characters in a row. -/
def members? (d : Draft) : List Char → Option Draft
| [] => some d
| c :: rest => (d.member? c).bind (·.members? rest)

/- A dash joins two characters or is one itself. -/
def dash? (d : Draft) : Option Draft :=
  match d.last, d.dashed with
  | some _, false => some { d with dashed := true }
  | _, _ => d.member? '-'

/- The ranges of a class that ends here. -/
def closed (d : Draft) : List CharRange :=
  if d.dashed then d.settled ++ [.single '-'] else d.settled

/- Nothing was read yet, so a bracket is a member. -/
def isEmpty (d : Draft) : Bool :=
  d.ranges.isEmpty && d.last.isNone

end Draft

/- A class goes on, or it is complete and may repeat. -/
inductive ClassStep where
  | more (d : Draft)
  | done (ranges : List CharRange) (repeated : Bool)
deriving DecidableEq, Repr

/- The characters that `**/` adds to a class. -/
def treeMembers : List Char :=
  ['(', '?', ':', '.', '+', '/', ')', '?']

/- The characters that a star or `?` adds to a class. -/
def wildcardMembers : List Char :=
  ['[', '^', '/']

/- What a mark does to the class that it stands in. -/
def Draft.step? (d : Draft) : Mark → Option ClassStep
| .plain c => (d.member? c).map .more
| .tree => (d.members? treeMembers).map .more
| .star =>
    (d.members? wildcardMembers).map (.done ·.closed true)
| .question =>
    (d.members? wildcardMembers).map (.done ·.closed false)
| .opening false => (d.members? ['[']).map .more
| .opening true => (d.members? ['[', '^']).map .more
| .dash => d.dash?.map .more
| .closing =>
    if d.isEmpty then (d.member? ']').map .more
    else some (.done d.closed false)

end Mask

end SymbolAtlas

------------------------------------------------------------
-- Items of a Mask Text
------------------------------------------------------------

namespace SymbolAtlas

namespace Mask

/- Where the reader stands. -/
inductive Reading where
  | outside
  | inside (negated : Bool) (draft : Draft)
deriving DecidableEq, Repr

/- The item of a complete class. -/
def classItem
    (negated : Bool)
    (ranges : List CharRange)
    (repeated : Bool) : Item :=
  if repeated then .manyOf ⟨negated, ranges⟩
  else .oneOf ⟨negated, ranges⟩

/-
  The items of a list of marks. There are none when a class is
  not closed or has a range that runs backwards.
-/
def readItems : Reading → List Mark → Option (List Item)
| .outside, [] => some []
| .inside _ _, [] => none
| .outside, .tree :: rest =>
    (readItems .outside rest).map (Item.tree :: ·)
| .outside, .star :: rest =>
    (readItems .outside rest).map (Item.run :: ·)
| .outside, .question :: rest =>
    (readItems .outside rest).map (Item.single :: ·)
| .outside, .closing :: rest =>
    (readItems .outside rest).map (Item.literal ']' :: ·)
| .outside, .dash :: rest =>
    (readItems .outside rest).map (Item.literal '-' :: ·)
| .outside, .plain c :: rest =>
    (readItems .outside rest).map (Item.literal c :: ·)
| .outside, .opening negated :: rest =>
    readItems (.inside negated .empty) rest
| .inside negated draft, mark :: rest =>
    match draft.step? mark with
    | none => none
    | some (.more next) =>
        readItems (.inside negated next) rest
    | some (.done ranges repeated) =>
        (readItems .outside rest).map
          (classItem negated ranges repeated :: ·)

end Mask

end SymbolAtlas
