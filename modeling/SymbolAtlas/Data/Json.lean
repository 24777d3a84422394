import SymbolAtlas.Data.Datum
import SymbolAtlas.Text.Half

/-
  JSON texts.

  The reader takes every JSON text, and besides it the words
  for infinite numbers and for what is no number. Half of a
  character may stand alone in an escape. Brackets may be nested
  as deep as the reader has room for, and no deeper. The printer
  writes ASCII only, on one line or indented with sorted keys.

  Key definitions:
    * `Json.Flaw`, `Json.parse`
    * `Json.compact`, `Json.indented`
-/

------------------------------------------------------------
-- Strings
------------------------------------------------------------

namespace SymbolAtlas

namespace Json

/- Blanks between the parts of a text. -/
def isGap (c : Char) : Bool :=
  c == ' ' || c == '\t' || c == '\n' || c == '\r'

def skip (text : List Char) : List Char :=
  text.dropWhile isGap

def hexValue? (c : Char) : Option Nat :=
  if c.isDigit then some (c.toNat - 48)
  else if 'a' ≤ c ∧ c ≤ 'f' then some (c.toNat - 87)
  else if 'A' ≤ c ∧ c ≤ 'F' then some (c.toNat - 55)
  else none

def hex4? (a b c d : Char) : Option Nat := do
  let a ← hexValue? a
  let b ← hexValue? b
  let c ← hexValue? c
  let d ← hexValue? d
  return ((a * 16 + b) * 16 + c) * 16 + d

/- The character that an escape of one letter stands for. -/
def escapedChar? : Char → Option Char
| '"' => some '"'
| '\\' => some '\\'
| '/' => some '/'
| 'b' => some '\x08'
| 'f' => some '\x0c'
| 'n' => some '\n'
| 'r' => some '\r'
| 't' => some '\t'
| _ => none

/- The letters of a string, up to and past its closing quote. -/
def letters? : List Char → Option (List Letter × List Char)
| [] => none
| '"' :: rest => some ([], rest)
| '\\' :: 'u' :: a :: b :: c :: d :: rest =>
    (hex4? a b c d).bind fun unit =>
      (letters? rest).map fun (ls, r) => (.ofUnit unit :: ls, r)
| '\\' :: c :: rest =>
    (escapedChar? c).bind fun e =>
      (letters? rest).map fun (ls, r) => (.char e :: ls, r)
| c :: rest =>
    if c.toNat < 0x20 then none
    else (letters? rest).map fun (ls, r) => (.char c :: ls, r)

/- The rest of a string, up to and past its closing quote. -/
def string? (text : List Char) : Option (List Char × List Char) :=
  (letters? text).map fun (letters, rest) =>
    ((Letter.merged letters).map Letter.toChar, rest)

end Json

end SymbolAtlas

------------------------------------------------------------
-- Numbers
------------------------------------------------------------

namespace SymbolAtlas

namespace Json

/- The digits in front of a text. -/
def leadingDigits (text : List Char) : List Char × List Char :=
  (text.takeWhile Char.isDigit, text.dropWhile Char.isDigit)

def natOf (digits : List Char) : Nat :=
  digits.foldl (fun n c => 10 * n + (c.toNat - 48)) 0

/- A fraction: a point and at least one digit. -/
def fraction (text : List Char) : List Char × List Char :=
  match text with
  | '.' :: rest =>
      match leadingDigits rest with
      | ([], _) => ([], text)
      | (digits, after) => (digits, after)
  | _ => ([], text)

/- An exponent: a mark, maybe a sign, at least one digit. -/
def exponent? (text : List Char) : Option (Int × List Char) :=
  let digitsAfter (negative : Bool) (rest : List Char) :=
    match leadingDigits rest with
    | ([], _) => none
    | (digits, after) =>
        let n : Int := natOf digits
        some (if negative then -n else n, after)
  match text with
  | c :: '-' :: rest =>
      if c = 'e' ∨ c = 'E' then digitsAfter true rest else none
  | c :: '+' :: rest =>
      if c = 'e' ∨ c = 'E' then digitsAfter false rest else none
  | c :: rest =>
      if c = 'e' ∨ c = 'E' then digitsAfter false rest else none
  | [] => none

/- The whole part of a number; only zero starts with a zero. -/
def wholeDigits (text : List Char) : List Char × List Char :=
  match text with
  | '0' :: rest => (['0'], rest)
  | _ => leadingDigits text

/- A number behind its sign. -/
def unsigned? (negative : Bool) (text : List Char) :
    Option (Datum × List Char) :=
  match wholeDigits text with
  | ([], _) => none
  | (whole, rest) =>
      let (decimals, afterFraction) := fraction rest
      match decimals, exponent? afterFraction with
      | [], none =>
          if whole.length ≤ Datum.digitLimit then
            let n : Int := natOf whole
            some (.int (if negative then -n else n), afterFraction)
          else none
      | _, some (power, after) =>
          some (.real (.ofDecimal negative
            (natOf (whole ++ decimals))
            (power - decimals.length)), after)
      | _, none =>
          some (.real (.ofDecimal negative
            (natOf (whole ++ decimals))
            (-(decimals.length : Int))), afterFraction)

end Json

end SymbolAtlas

------------------------------------------------------------
-- Values
------------------------------------------------------------

namespace SymbolAtlas

namespace Json

/- What follows a word at the front of a text. -/
def after? (word : String) (text : List Char) :
    Option (List Char) :=
  if word.toList.isPrefixOf text then
    some (text.drop word.length)
  else none

/- The words that stand for a value. -/
def wordValues : List (String × Datum) :=
  [("null", .null), ("true", .bool true), ("false", .bool false),
    ("NaN", .real .notNumber),
    ("Infinity", .real (.infinite false)),
    ("-Infinity", .real (.infinite true))]

def word? (text : List Char) : Option (Datum × List Char) :=
  wordValues.findSome? fun (word, value) =>
    (after? word text).map (value, ·)

/- Why a text is not read. -/
inductive Flaw where
  | malformed
  | tooDeep
deriving DecidableEq, Repr

/- What was found, or else the text is malformed. -/
def orMalformed {α : Type} : Option α → Except Flaw α
| some found => .ok found
| none => .error .malformed

/- Read what is between brackets, if there is room for it. -/
def inside
    {α : Type}
    (room : Nat)
    (read : Nat → Except Flaw α) : Except Flaw α :=
  match room with
  | 0 => .error .tooDeep
  | room + 1 => read room

mutual

/-
  The value at the front of a text. The fuel bounds the steps,
  the room the brackets that are open at a time.
-/
def readValue : (fuel room : Nat) → List Char →
    Except Flaw (Datum × List Char)
| 0, _, _ => .error .malformed
| fuel + 1, room, text =>
    match text with
    | '"' :: rest =>
        (orMalformed (string? rest)).map
          fun (s, r) => (.text (String.ofList s), r)
    | '[' :: rest =>
        inside room fun room =>
          match skip rest with
          | ']' :: after => .ok (.list [], after)
          | items =>
              (readItems fuel room items).map
                fun (vs, r) => (.list vs, r)
    | '{' :: rest =>
        inside room fun room =>
          match skip rest with
          | '}' :: after => .ok (.record [], after)
          | fields =>
              (readFields fuel room fields).map
                fun (fs, r) => (.record (Keyed.ofList fs).entries, r)
    | '-' :: rest =>
        orMalformed ((word? text).or (unsigned? true rest))
    | _ => orMalformed ((word? text).or (unsigned? false text))

/- The items of a list, up to and past its bracket. -/
def readItems : (fuel room : Nat) → List Char →
    Except Flaw (List Datum × List Char)
| 0, _, _ => .error .malformed
| fuel + 1, room, text =>
    (readValue fuel room text).bind fun (value, rest) =>
      match skip rest with
      | ']' :: after => .ok ([value], after)
      | ',' :: more =>
          (readItems fuel room (skip more)).map
            fun (values, r) => (value :: values, r)
      | _ => .error .malformed

/- The fields of a record, up to and past its brace. -/
def readFields : (fuel room : Nat) → List Char →
    Except Flaw (List (String × Datum) × List Char)
| 0, _, _ => .error .malformed
| fuel + 1, room, text =>
    match text with
    | '"' :: quoted =>
        (orMalformed (string? quoted)).bind fun (key, afterKey) =>
          match skip afterKey with
          | ':' :: rest =>
              (readValue fuel room (skip rest)).bind
                fun (value, after) =>
                  match skip after with
                  | '}' :: last =>
                      .ok ([(String.ofList key, value)], last)
                  | ',' :: more =>
                      (readFields fuel room (skip more)).map
                        fun (fs, r) =>
                          ((String.ofList key, value) :: fs, r)
                  | _ => .error .malformed
          | _ => .error .malformed
    | _ => .error .malformed

end

/-
  The value of a whole text, with so much room for brackets. Two
  steps of fuel are enough for every character.
-/
def parse (room : Nat) (text : String) : Except Flaw Datum :=
  let chars := text.toList
  (readValue (2 * chars.length + 1) room (skip chars)).bind
    fun (value, rest) =>
      if (skip rest).isEmpty then .ok value else .error .malformed

end Json

end SymbolAtlas

------------------------------------------------------------
-- Printing
------------------------------------------------------------

namespace SymbolAtlas

namespace Json

/- One unit of sixteen bits as an escape. -/
def unitEscape (n : Nat) : List Char :=
  '\\' :: 'u' :: Quoted.hex 4 n

/- One character beyond ASCII, as one or two units. -/
def unitEscapes (c : Char) : List Char :=
  if c.toNat < 0x10000 then unitEscape c.toNat
  else
    unitEscape (Half.highUnit c) ++ unitEscape (Half.lowUnit c)

/- One character of a string. -/
def escape (c : Char) : List Char :=
  if c = '"' then ['\\', '"']
  else if c = '\\' then ['\\', '\\']
  else if c = '\n' then ['\\', 'n']
  else if c = '\r' then ['\\', 'r']
  else if c = '\t' then ['\\', 't']
  else if c = '\x08' then ['\\', 'b']
  else if c = '\x0c' then ['\\', 'f']
  else if 0x20 ≤ c.toNat ∧ c.toNat < 0x7F then [c]
  else unitEscapes c

/- The characters of a string. -/
def escapes (chars : List Char) : List Char :=
  chars.flatMap escape

/- A string between quotes. -/
def quoted (s : String) : List Char :=
  '"' :: escapes s.toList ++ ['"']

/- A value without parts. -/
def scalar : Datum → List Char
| .null => "null".toList
| .bool b => (if b then "true" else "false").toList
| .int n => (toString n).toList
| .real x => x.text.toList
| .text s => quoted s
| .moment m => quoted m.text
| _ => []

mutual

/- A value on one line without blanks. -/
def compact : Datum → List Char
| .list items =>
    '[' :: [','].intercalate (compactItems items) ++ [']']
| .record fields =>
    '{' :: [','].intercalate (compactFields fields) ++ ['}']
| other => scalar other

def compactItems : List Datum → List (List Char)
| [] => []
| item :: items => compact item :: compactItems items

def compactFields : List (String × Datum) → List (List Char)
| [] => []
| (key, value) :: fields =>
    (quoted key ++ ':' :: compact value) :: compactFields fields

end

/- The start of a line at a depth. -/
def newLine (depth : Nat) : List Char :=
  '\n' :: List.replicate (2 * depth) ' '

/- Parts between brackets, each on a line of its own. -/
def block
    (depth : Nat)
    (opening closing : Char)
    (parts : List (List Char)) : List Char :=
  if parts.isEmpty then [opening, closing]
  else
    opening :: newLine (depth + 1) ++
      (',' :: newLine (depth + 1)).intercalate parts ++
      newLine depth ++ [closing]

mutual

/- A value with each part on a line of its own. -/
def indentedAt (depth : Nat) : Datum → List Char
| .list items =>
    block depth '[' ']' (indentedItems (depth + 1) items)
| .record fields =>
    block depth '{' '}' (indentedFields (depth + 1) fields)
| other => scalar other

def indentedItems (depth : Nat) : List Datum → List (List Char)
| [] => []
| item :: items =>
    indentedAt depth item :: indentedItems depth items

def indentedFields (depth : Nat) :
    List (String × Datum) → List (List Char)
| [] => []
| (key, value) :: fields =>
    (quoted key ++ ':' :: ' ' :: indentedAt depth value) ::
      indentedFields depth fields

end

/- A value on several lines. -/
def indented (value : Datum) : String :=
  String.ofList (indentedAt 0 value)

end Json

end SymbolAtlas
