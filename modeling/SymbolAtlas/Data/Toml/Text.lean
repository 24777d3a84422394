import SymbolAtlas.Data.Json

/-
  The small parts of a TOML text: gaps, strings and keys.

  A reader takes the text from some point on and gives what it
  read and the rest, or nothing if the text is not as it must
  be.

  Key definitions:
    * `Toml.comment?`, `Toml.gaps?`
    * `Toml.oneLine?`, `Toml.literal?`, `Toml.block?`
    * `Toml.key?`
-/

------------------------------------------------------------
-- Gaps
------------------------------------------------------------

namespace SymbolAtlas

namespace Toml

/- Something read from the front of a text, and the rest. -/
abbrev Read (α : Type) := Option (α × List Char)

def isBlank (c : Char) : Bool :=
  c == ' ' || c == '\t'

def isGap (c : Char) : Bool :=
  isBlank c || c == '\n'

def skipBlanks (text : List Char) : List Char :=
  text.dropWhile isBlank

/- Control characters other than the tab are nowhere allowed. -/
def isIllegal (c : Char) : Bool :=
  (decide (c.toNat < 0x20) || c.toNat == 0x7F) && c != '\t'

/- A text of several lines may also hold line ends. -/
def isIllegalInBlock (c : Char) : Bool :=
  isIllegal c && c != '\n'

/- Pass over a comment, if there is one. -/
def comment? (text : List Char) : Option (List Char) :=
  match text with
  | '#' :: rest =>
      if (rest.takeWhile (· != '\n')).any isIllegal then none
      else some (rest.dropWhile (· != '\n'))
  | _ => some text

/- Pass over blanks, line ends and comments. -/
def gapsFrom? : (fuel : Nat) → List Char → Option (List Char)
| 0, text => some text
| fuel + 1, text =>
    match text.dropWhile isGap with
    | '#' :: rest => (comment? ('#' :: rest)).bind (gapsFrom? fuel)
    | bare => some bare

def gaps? (text : List Char) : Option (List Char) :=
  gapsFrom? (text.length + 1) text

end Toml

end SymbolAtlas

------------------------------------------------------------
-- Strings
------------------------------------------------------------

namespace SymbolAtlas

namespace Toml

/- The number of hexadecimal digits, if all are. -/
def hexOf? (digits : List Char) : Option Nat :=
  digits.foldlM (fun n c => (Json.hexValue? c).map (16 * n + ·)) 0

/- A character given by exactly so many hexadecimal digits. -/
def coded? (count : Nat) (text : List Char) : Read (List Char) :=
  let digits := text.take count
  if digits.length < count then none
  else
    (hexOf? digits).bind fun n =>
      if h : n.isValidChar then
        some ([Char.ofNatAux n h], text.drop count)
      else none

/- The characters that a backslash and a letter stand for. -/
def escapes : List (Char × Char) :=
  [('b', '\x08'), ('t', '\t'), ('n', '\n'), ('f', '\x0c'),
    ('r', '\r'), ('"', '"'), ('\\', '\\')]

/-
  What stands behind a backslash. In a block it may also be a
  line end with the gaps after it, and only blanks before it.
-/
def escape? (inBlock : Bool) : List Char → Read (List Char)
| [] => none
| 'u' :: rest => coded? 4 rest
| 'U' :: rest => coded? 8 rest
| c :: rest =>
    if inBlock && isGap c then
      match skipBlanks (c :: rest) with
      | '\n' :: after => some ([], after.dropWhile isGap)
      | [] => some ([], [])
      | _ => none
    else (escapes.lookup c).map ([·], rest)

/- The rest of a string with escapes, up to and past its end. -/
def basicFrom? (inBlock : Bool) :
    (fuel : Nat) → List Char → Read (List Char)
| 0, _ => none
| _, [] => none
| fuel + 1, '"' :: rest =>
    if !inBlock then some ([], rest)
    else
      match rest with
      | '"' :: '"' :: after => some ([], after)
      | _ =>
          (basicFrom? inBlock fuel rest).map
            fun (s, r) => ('"' :: s, r)
| fuel + 1, '\\' :: rest =>
    (escape? inBlock rest).bind fun (front, after) =>
      (basicFrom? inBlock fuel after).map
        fun (s, r) => (front ++ s, r)
| fuel + 1, c :: rest =>
    if (if inBlock then isIllegalInBlock c else isIllegal c)
    then none
    else
      (basicFrom? inBlock fuel rest).map
        fun (s, r) => (c :: s, r)

def basic? (inBlock : Bool) (text : List Char) :
    Read (List Char) :=
  basicFrom? inBlock (text.length + 1) text

/- The rest of a literal string, up to and past its end. -/
def literal? (text : List Char) : Read (List Char) :=
  let body := text.takeWhile (· != '\'')
  match text.dropWhile (· != '\'') with
  | _ :: rest => if body.any isIllegal then none else some (body, rest)
  | [] => none

/- The rest of a literal block, up to and past its end. -/
def literalBlock? : List Char → Read (List Char)
| [] => none
| '\'' :: '\'' :: '\'' :: rest => some ([], rest)
| c :: rest =>
    if isIllegalInBlock c then none
    else (literalBlock? rest).map fun (s, r) => (c :: s, r)

/- Up to two quotes in front of the end belong to a block. -/
def withQuotes (quote : Char) (read : List Char × List Char) :
    List Char × List Char :=
  let (body, rest) := read
  let more := (rest.take 2).takeWhile (· == quote)
  (body ++ more, rest.drop more.length)

/- A block does not begin with a line end. -/
def openBlock : List Char → List Char
| '\n' :: rest => rest
| text => text

/- A string of one line, from its first quote on. -/
def oneLine? : List Char → Read (List Char)
| '"' :: rest => basic? false rest
| '\'' :: rest => literal? rest
| _ => none

/- A string, from its first quote on. -/
def string? : List Char → Read (List Char)
| '"' :: '"' :: '"' :: rest =>
    (basic? true (openBlock rest)).map (withQuotes '"')
| '\'' :: '\'' :: '\'' :: rest =>
    (literalBlock? (openBlock rest)).map (withQuotes '\'')
| text => oneLine? text

end Toml

end SymbolAtlas

------------------------------------------------------------
-- Keys
------------------------------------------------------------

namespace SymbolAtlas

namespace Toml

/- The names on the way to a value. -/
abbrev Key := List String

def isBare (c : Char) : Bool :=
  c.isAlphanum || c == '-' || c == '_'

/- A single name. -/
def name? (text : List Char) : Read String :=
  match text with
  | [] => none
  | c :: _ =>
      if isBare c then
        some (String.ofList (text.takeWhile isBare),
          text.dropWhile isBare)
      else (oneLine? text).map fun (s, r) => (String.ofList s, r)

/- Names with dots between them, and blanks around the dots. -/
def keyFrom? : (fuel : Nat) → List Char → Read Key
| 0, _ => none
| fuel + 1, text =>
    (name? text).bind fun (name, rest) =>
      match skipBlanks rest with
      | '.' :: more =>
          (keyFrom? fuel (skipBlanks more)).map
            fun (names, r) => (name :: names, r)
      | bare => some ([name], bare)

def key? (text : List Char) : Read Key :=
  keyFrom? (text.length + 1) text

/- The character may begin a key. -/
def beginsKey (c : Char) : Bool :=
  isBare c || c == '"' || c == '\''

end Toml

end SymbolAtlas
