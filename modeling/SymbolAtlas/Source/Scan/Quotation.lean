import SymbolAtlas.Source.Scan.Character

/-
  Strings in a source text.

  A string between single quotes is one token. Other strings
  may hold variables and code, and are cut into pieces. A long
  string stands between two labels, of which the second begins
  a line of its own.

  Key definitions:
    * `Host`
    * `Scan.literalLength`, `Scan.contentLength`
    * `Scan.labelLength`, `Scan.labelAgainLength`
-/

------------------------------------------------------------
-- Strings between Quotes
------------------------------------------------------------

namespace SymbolAtlas

/- What a string that may hold variables stands between. -/
inductive Host where
  | quotes
  | backticks
  | labels
deriving DecidableEq, Repr

namespace Scan

/- The rest of a string between single quotes. -/
def singleLength? : List Char → Option Nat
| [] => none
| '\\' :: _ :: rest => (singleLength? rest).map (2 + ·)
| '\'' :: _ => some 1
| _ :: rest => (singleLength? rest).map (1 + ·)

/- The length of a string without variables, or zero. -/
def literalLength : List Char → Nat
| '\'' :: rest => ((singleLength? rest).map (1 + ·)).getD 0
| b :: '\'' :: rest =>
    if b = 'b' || b = 'B' then
      ((singleLength? rest).map (2 + ·)).getD 0
    else 0
| _ => 0

/- The length of a double quote that begins a string, or zero. -/
def openingLength : List Char → Nat
| '"' :: _ => 1
| b :: '"' :: _ => if b = 'b' || b = 'B' then 2 else 0
| _ => 0

end Scan

end SymbolAtlas

------------------------------------------------------------
-- Content
------------------------------------------------------------

namespace SymbolAtlas

namespace Scan

/- The character ends the content of a string. -/
def endsContent (host : Host) (c : Char) : Bool :=
  match host with
  | .quotes => c == '"'
  | .backticks => c == '`'
  | .labels => isLineEnd c

/- A backslash takes the character behind it along. -/
def isEscaped (host : Host) (c : Char) : Bool :=
  ['n', 'r', 't', 'v', 'e', 'f', '\\', '$', '"', 'u', '\x7b'].contains
      c ||
    ('0' ≤ c && c ≤ '7') || (host == .backticks && c == '`')

/-
  The content of a string up to its end, a variable or a piece
  of code.
-/
def contentLength (host : Host) : List Char → Nat
| [] => 0
| '\\' :: c :: rest =>
    if isEscaped host c then 2 + contentLength host rest
    else 1 + contentLength host (c :: rest)
| '$' :: c :: rest =>
    if beginsVariable c || c == '\x7b' then 0
    else 1 + contentLength host (c :: rest)
| '\x7b' :: '$' :: _ => 0
| c :: rest =>
    if endsContent host c then 0 else 1 + contentLength host rest

/-
  The content of a string behind a variable, where a bracket
  and an arrow may go on with the variable.
-/
def contentAfterLength (host : Host) : List Char → Nat
| '[' :: _ => 0
| '-' :: '>' :: c :: rest =>
    if beginsVariable c then 0
    else 2 + contentLength host (c :: rest)
| text => contentLength host text

end Scan

end SymbolAtlas

------------------------------------------------------------
-- Labels
------------------------------------------------------------

namespace SymbolAtlas

namespace Scan

/- The length of blanks and of comments that end lines. -/
def spacesLength : (inComment : Bool) → List Char → Nat
| _, [] => 0
| true, c :: rest => 1 + spacesLength (c != '\n') rest
| false, '/' :: '/' :: rest => 2 + spacesLength true rest
| false, c :: rest =>
    if isSpace c then 1 + spacesLength false rest else 0

/- The label that a text starts with. -/
def labelOf (text : List Char) : List Char :=
  text.takeWhile isLabelChar

/- The length of a label and what is before it, or zero. -/
def labelLength (text : List Char) : Nat :=
  let blanks := spacesLength false text
  let label := (labelOf (text.drop blanks)).length
  if label = 0 then 0 else blanks + label

/- The length of a given label and the blanks before it. -/
def labelAgainLength (label text : List Char) : Nat :=
  let blanks := (text.takeWhile isSpace).length
  if labelOf (text.drop blanks) = label then
    blanks + label.length
  else 0

/- The same at the end of a line. -/
def nextLabelLength (label text : List Char) : Nat :=
  if text.head?.any isLineEnd then labelAgainLength label text
  else 0

/- The length of a line end, or zero. -/
def lineEndLength : List Char → Nat
| '\r' :: '\n' :: _ => 2
| c :: _ => if isLineEnd c then 1 else 0
| [] => 0

/- The number of characters before the line of a label. -/
def untilLabel? (label : List Char) : List Char → Option Nat
| [] => none
| c :: rest =>
    if nextLabelLength label (c :: rest) = 0 then
      (untilLabel? label rest).map (1 + ·)
    else some 0

/- The lines before the one with a label, or zero. -/
def rawLength (label text : List Char) : Nat :=
  if text.head?.any isLineEnd then
    ((untilLabel? label text.tail).map (1 + ·)).getD 0
  else 0

end Scan

end SymbolAtlas
