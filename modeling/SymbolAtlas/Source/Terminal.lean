import SymbolAtlas.Source.Scan.Comment
import SymbolAtlas.Source.Scan.Number
import SymbolAtlas.Source.Scan.Quotation
import SymbolAtlas.Source.Words

/-
  Terminals: the smallest parts of the grammar, and how they
  are found in a text.

  Which terminals are possible depends on what was read before.
  Of those that are, the longest one is found; a word that can
  have a meaning of its own has it, and is a name otherwise.

  Key definitions:
    * `Terminal`
    * `Terminal.length`
    * `Terminal.find?`
-/

------------------------------------------------------------
-- Terminals
------------------------------------------------------------

namespace SymbolAtlas

/- The smallest parts of the grammar. -/
inductive Terminal where
  | sign (text : String)
  /- A word in any case, given in lower case. -/
  | word (text : String)
  /- A word in this spelling only. -/
  | exact (text : String)
  | name
  /- The name of a declaration. -/
  | declared
  | integer
  | float
  /- Two words that are one. -/
  | yieldFrom
  /- A string that holds no variables. -/
  | literal
  /- A double quote that begins a string. -/
  | opening
  /- Content of a string, and whether a variable is before it. -/
  | content (host : Host) (isAfter : Bool)
  /- The label in front of a long string. -/
  | label
  /- The same label again, on the same line or on a later one. -/
  | labelAgain (isSameLine : Bool)
  | lineEnd
  /- Lines of a long string that holds no variables. -/
  | rawLines
  /- Leaving the code, which ends a statement. -/
  | leave
deriving DecidableEq, Repr

end SymbolAtlas

------------------------------------------------------------
-- Words
------------------------------------------------------------

namespace SymbolAtlas

namespace Terminal

def isSign : Terminal → Bool
| .sign _ => true
| _ => false

/- A word or a name. -/
def isWordLike : Terminal → Bool
| .word _ => true
| .exact _ => true
| .name => true
| .declared => true
| _ => false

/- What a word is, given what it can be. -/
def ofWord? (valid : List Terminal) (word : String) :
    Option Terminal :=
  let key := Terminal.word word.toLower
  if valid.contains (.exact word) then some (.exact word)
  else if valid.contains key then some key
  else if valid.contains .declared then
    if Words.reserved.contains word.toLower then none
    else some .declared
  else if valid.contains .name then some .name
  else none

/- The length of two words with blanks between them, or zero. -/
def yieldFromLength (text : List Char) : Nat :=
  let lower (cs : List Char) := String.ofList (cs.map Char.toLower)
  let rest := text.drop 5
  let blanks := (rest.takeWhile Char.isWhitespace).length
  if lower (text.take 5) = "yield" && blanks != 0 &&
      lower ((rest.drop blanks).take 4) = "from" then
    9 + blanks
  else 0

end Terminal

end SymbolAtlas

------------------------------------------------------------
-- Lengths
------------------------------------------------------------

namespace SymbolAtlas

namespace Terminal

/-
  The length of a terminal at the front of a text, or zero. A
  word is as long as the name that it could be.
-/
def length (text : List Char) : Terminal → Nat
| .sign s => if s.toList.isPrefixOf text then s.length else 0
| .word _ => Scan.nameLength text
| .exact _ => Scan.nameLength text
| .name => Scan.nameLength text
| .declared => Scan.nameLength text
| .integer => Scan.integerLength text
| .float => Scan.floatLength text
| .yieldFrom => yieldFromLength text
| .literal => Scan.literalLength text
| .opening => Scan.openingLength text
| .lineEnd => Scan.lineEndLength text
| _ => 0

/- Of two findings, the longer one, or else the first. -/
def longer (a b : Terminal × Nat) : Terminal × Nat :=
  if a.2 < b.2 then b else a

/-
  The longest terminal at the front of a text. Of the same
  length, a sign wins over a number and a number over a name.
-/
def longest (valid : List Terminal) (text : List Char) :
    Terminal × Nat :=
  let signs := valid.filter isSign
  let words := valid.filter isWordLike
  let others := valid.filter fun t => !t.isSign && !t.isWordLike
  let found := (signs ++ others ++ words.take 1).map fun t =>
    (t, t.length text)
  found.foldl longer (.leave, 0)

end Terminal

end SymbolAtlas

------------------------------------------------------------
-- Finding
------------------------------------------------------------

namespace SymbolAtlas

namespace Terminal

/- Only a closing tag stands between a text and its end. -/
def leaves (text : List Char) : Bool :=
  match text.drop (Scan.spacesLength false text) with
  | '?' :: '>' :: _ => true
  | _ => false

/-
  Terminals that do not look past blanks, the first of which
  decides: content, and the label of a long string.
-/
def special? (label : List Char) (valid : List Terminal)
    (text : List Char) : Option (Terminal × Nat) :=
  let found (t : Terminal) (length : Nat) :=
    if valid.contains t && length != 0 then some (t, length)
    else none
  let content (host : Host) :=
    if valid.contains (.content host true) then
      found (.content host true) (Scan.contentAfterLength host text)
    else
      found (.content host false) (Scan.contentLength host text)
  if valid.contains .leave && leaves text then some (.leave, 0)
  else
    (found (.labelAgain true) (Scan.labelAgainLength label text)).or
    <| (found (.labelAgain false) (Scan.nextLabelLength label text)).or
    <| (found .label (Scan.labelLength text)).or
    <| (found .rawLines (Scan.rawLength label text)).or
    <| (content .quotes).or
    <| (content .backticks).or (content .labels)

/- The terminal at the front of a text without blanks. -/
def find? (valid : List Terminal) (text : List Char) :
    Option (Terminal × Nat) :=
  let (terminal, length) := longest valid text
  if length = 0 then none
  else if terminal.isWordLike then
    (ofWord? valid (String.ofList (text.take length))).map
      (·, length)
  else some (terminal, length)

end Terminal

end SymbolAtlas
