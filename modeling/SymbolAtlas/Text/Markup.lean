import SymbolAtlas.Text.Emoji
import SymbolAtlas.Text.Handler
import SymbolAtlas.Text.Look

/-
  Texts with tags in square brackets.

  A tag is a bracket, one of the characters that begin tags,
  and everything up to the next closing bracket, without an
  opening one in between. Tags change how a text looks; here
  they only vanish. A backslash in front of a bracket keeps it.
  Names of pictures are looked for between the tags.

  A tag with a slash ends the look that it names, or the last
  one. It has to end something, but not every look has to end.
  Reading what follows the equals sign of a tag can also fail.

  Key definitions:
    * `Markup.Part`, `Markup.parts`
    * `Markup.Tag`, `Markup.follow`
    * `Markup.check`, `Markup.plain`
-/

------------------------------------------------------------
-- Tags
------------------------------------------------------------

namespace SymbolAtlas

namespace Markup

/- The characters that can follow the bracket of a tag. -/
def beginsTag (c : Char) : Bool :=
  c.isLower || c == '#' || c == '/' || c == '@'

/- The body of a tag behind its first character. -/
def tagBody? : List Char → Option (List Char × List Char)
| [] => none
| ']' :: rest => some ([], rest)
| '[' :: _ => none
| c :: rest => (tagBody? rest).map fun (body, r) => (c :: body, r)

/- The tag behind an opening bracket and what follows it. -/
def tag? : List Char → Option (List Char × List Char)
| c :: rest =>
    if beginsTag c then
      (tagBody? rest).map fun (body, r) => (c :: body, r)
    else none
| [] => none

end Markup

end SymbolAtlas

------------------------------------------------------------
-- Parts
------------------------------------------------------------

namespace SymbolAtlas

namespace Markup

/- A part of a text: something to show, or a tag. -/
inductive Part where
  | shown (chars : List Char)
  | tag (body : List Char)
deriving DecidableEq, Repr

/- So many backslashes. -/
def slashes (n : Nat) : List Char :=
  List.replicate n '\\'

/-
  The parts of a text, the last one first, given what was begun,
  backwards, and how many backslashes were just passed. In front
  of a tag each pair of them is one, and one left over makes the
  tag plain text. In front of another bracket one is dropped.
-/
def partsFrom :
    (fuel : Nat) → (done : List Part) →
      (begun : List Char) → (passed : Nat) → List Char →
      List Part
| 0, done, begun, passed, text =>
    .shown (begun.reverse ++ slashes passed ++ text) :: done
| _, done, begun, passed, [] =>
    .shown (begun.reverse ++ slashes passed) :: done
| fuel + 1, done, begun, passed, '\\' :: rest =>
    partsFrom fuel done begun (passed + 1) rest
| fuel + 1, done, begun, passed, '[' :: rest =>
    match tag? rest with
    | some (body, after) =>
        let last :=
          if passed % 2 = 1 then .shown ('[' :: body ++ [']'])
          else .tag body
        partsFrom fuel
          (last :: .shown (slashes (passed / 2)) ::
            .shown begun.reverse :: done) [] 0 after
    | none =>
        partsFrom fuel done
          ('[' :: slashes (passed - 1) ++ begun) 0 rest
| fuel + 1, done, begun, passed, c :: rest =>
    partsFrom fuel done (c :: slashes passed ++ begun) 0 rest

/- The parts of a text. -/
def parts (text : String) : List Part :=
  let chars := text.toList
  (partsFrom (chars.length + 1) [] [] 0 chars).reverse

end Markup

end SymbolAtlas

------------------------------------------------------------
-- Looks in Use
------------------------------------------------------------

namespace SymbolAtlas

namespace Markup

/- A tag begins a look or ends one that has a name, or any. -/
inductive Tag where
  | begins (name : List Char) (extras : Option (List Char))
  | ends (name : List Char)
deriving DecidableEq, Repr

/- What follows an equals sign does not name a look. -/
def Tag.ofBody (body : List Char) : Tag :=
  match body.span (· != '=') with
  | ('/' :: name, _) => .ends (Blank.trim name)
  | (name, extras) => .begins name extras.tail?

/- A look that was begun, with what follows its equals sign. -/
structure Begun where
  name : String
  extras : Option (List Char)
deriving DecidableEq, Repr

/- Something is called instead of giving a look. -/
def Begun.isHandler (b : Begun) : Bool :=
  b.name.toList.head? == some '@'

/- The look as it is described when the text is painted. -/
def Begun.description (b : Begun) : List Char :=
  match b.extras with
  | some extras => b.name.toList ++ ' ' :: extras
  | none => b.name.toList

/- A look with a name in the form that all of its like have. -/
def begun (name : List Char) (extras : Option (List Char)) :
    Except Error Begun :=
  (Look.normal name).map (⟨·, extras⟩)

/- What is called when the look is ended has to be read. -/
def Begun.ending (b : Begun) : Except Error Unit :=
  match b.extras with
  | some (c :: rest) =>
      if b.isHandler && !Handler.isRead (c :: rest) then
        .error .unreadHandler
      else .ok ()
  | _ => .ok ()

/- Without the last look of some kind, which has to end well. -/
def endLast (isMeant : Begun → Bool) (looks : List Begun) :
    Except Error (List Begun) :=
  match looks.find? isMeant with
  | some look => look.ending.map fun _ => looks.eraseP isMeant
  | none => .error .unmatchedTag

/- The looks that are in use behind a tag, the last one first. -/
def Tag.behind (looks : List Begun) :
    Tag → Except Error (List Begun)
| .begins name extras => (begun name extras).map (· :: looks)
| .ends [] => endLast (fun _ => true) looks
| .ends name =>
    (Look.normal name).bind fun look =>
      endLast (·.name == look) looks

/- A look is painted with what follows its equals sign. -/
def Tag.paint : Tag → Except Error Unit
| .begins name extras =>
    (begun name extras).bind fun look =>
      (Look.normal look.description).map fun _ => ()
| .ends _ => .ok ()

/- Go through some tags, with the looks in use before them. -/
def follow : (looks : List Begun) → List Tag → Except Error Unit
| _, [] => .ok ()
| looks, tag :: rest =>
    (tag.behind looks).bind fun next => follow next rest

end Markup

end SymbolAtlas

------------------------------------------------------------
-- Plain Texts
------------------------------------------------------------

namespace SymbolAtlas

namespace Markup

/- The tags among some parts. -/
def tagsOf : List Part → List (List Char)
| [] => []
| .shown _ :: rest => tagsOf rest
| .tag body :: rest => body :: tagsOf rest

/- The parts without the tags. -/
def shownOf : List Part → List Char
| [] => []
| .shown chars :: rest => Emoji.replaced chars ++ shownOf rest
| .tag _ :: rest => shownOf rest

/- Tags are followed before any of their looks is painted. -/
def check (bodies : List (List Char)) : Except Error Unit :=
  let tags := bodies.map Tag.ofBody
  (follow [] tags).bind fun _ => tags.forM Tag.paint

/-
  What is left of a text when its tags are gone and pictures
  have taken the place of their names.
-/
def plain (text : String) : Except Error String :=
  let parts := parts text
  (check (tagsOf parts)).map fun _ =>
    String.ofList (shownOf parts)

end Markup

end SymbolAtlas
