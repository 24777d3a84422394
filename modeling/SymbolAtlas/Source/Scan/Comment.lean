import SymbolAtlas.Source.Scan.Character

/-
  Comments, and the tags around code.

  A comment that ends with its line also ends before a closing
  tag. Lengths are counted in characters.

  Key definitions:
    * `Scan.commentLength`
    * `Trivia`, `Scan.outside`
-/

------------------------------------------------------------
-- Comments
------------------------------------------------------------

namespace SymbolAtlas

namespace Scan

/-
  The rest of a comment that ends with its line. A question
  mark is read together with the character behind it, the end
  of the line included.
-/
def lineLength : List Char → Nat
| [] => 0
| ['?'] => 0
| '?' :: '>' :: _ => 0
| '?' :: '\n' :: _ => 2
| '?' :: '\r' :: '\n' :: _ => 3
| '?' :: '\r' :: _ => 0
| '?' :: _ :: rest => 2 + lineLength rest
| '\n' :: _ => 0
| '\r' :: _ => 0
| _ :: rest => 1 + lineLength rest

/- The rest of a comment behind a number sign. -/
def hashLength : List Char → Nat
| [] => 0
| '?' :: _ => 0
| '[' :: _ => 0
| text => lineLength text

/- The rest of a comment that has an end of its own. -/
def blockLength? : List Char → Option Nat
| [] => none
| '*' :: '/' :: _ => some 2
| _ :: rest => (blockLength? rest).map (1 + ·)

/-
  The length of the comment that a text starts with, or zero.
  A number sign and a bracket may be something else.
-/
def commentLength (attributes : Bool) : List Char → Nat
| '/' :: '*' :: rest => ((blockLength? rest).map (2 + ·)).getD 0
| '/' :: '/' :: rest => 2 + lineLength rest
| '#' :: '[' :: rest =>
    if attributes then 0 else 1 + hashLength ('[' :: rest)
| '#' :: rest => 1 + hashLength rest
| _ => 0

end Scan

end SymbolAtlas

------------------------------------------------------------
-- Tags
------------------------------------------------------------

namespace SymbolAtlas

/- What may stand between any two tokens. -/
inductive Trivia where
  | blank (text : String)
  | comment (text : String)
  /- Text around the code. -/
  | markup (text : String)
  | tag (text : String)
deriving DecidableEq, Repr

namespace Trivia

/- How it is written. -/
def text : Trivia → String
| .blank t => t
| .comment t => t
| .markup t => t
| .tag t => t

end Trivia

namespace Scan

/- The rest of an opening tag. -/
def tagLength : List Char → Nat
| '=' :: _ => 1
| p :: h :: q :: _ =>
    if [p, h, q].map Char.toLower = ['p', 'h', 'p'] then 3 else 0
| _ => 0

/- The number of characters before the next opening tag. -/
def untilTag : List Char → Nat
| [] => 0
| '<' :: '?' :: _ => 0
| _ :: rest => 1 + untilTag rest

/- Text around the code, unless there is none. -/
def markupOf (text : List Char) : List Trivia :=
  if text.isEmpty then [] else [.markup (String.ofList text)]

/- Text outside of code, with the tag that ends it. -/
def outside (text : List Char) : List Trivia × List Char :=
  let (before, after) := text.splitAt (untilTag text)
  match after with
  | '<' :: '?' :: rest =>
      let (kind, code) := rest.splitAt (tagLength rest)
      (markupOf before ++ [.tag ("<?" ++ String.ofList kind)], code)
  | _ => (markupOf before, [])

end Scan

end SymbolAtlas
