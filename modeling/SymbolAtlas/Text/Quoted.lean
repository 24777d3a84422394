import SymbolAtlas.Text.Printable

/-
  Texts shown between quotes.

  Single quotes are used unless the text holds a single quote
  and no double quote. The quote, the backslash and whatever
  is not printable are written as escapes.

  Key definitions:
    * `Quoted.quoteFor`
    * `Quoted.ofText`
-/

namespace SymbolAtlas

namespace Quoted

/- The quote that needs no escape, if there is one. -/
def quoteFor (text : List Char) : Char :=
  if text.contains '\'' && !text.contains '"' then '"'
  else '\''

/- The lower-case hexadecimal digit of a number below 16. -/
def hexDigit (n : Nat) : Char :=
  if n < 10 then Char.ofNat (48 + n) else Char.ofNat (87 + n)

/- A number in hexadecimal with exactly so many digits. -/
def hex : (width : Nat) → Nat → List Char
| 0, _ => []
| width + 1, n => hex width (n / 16) ++ [hexDigit (n % 16)]

/- The escape of a character that is not shown as itself. -/
def codeEscape (c : Char) : List Char :=
  if c.toNat < 0x100 then ['\\', 'x'] ++ hex 2 c.toNat
  else if c.toNat < 0x10000 then ['\\', 'u'] ++ hex 4 c.toNat
  else ['\\', 'U'] ++ hex 8 c.toNat

/- One character of the text between such quotes. -/
def escape (quote c : Char) : List Char :=
  if c = quote ∨ c = '\\' then ['\\', c]
  else if c = '\t' then ['\\', 't']
  else if c = '\n' then ['\\', 'n']
  else if c = '\r' then ['\\', 'r']
  else if Printable.isPrintable c then [c]
  else codeEscape c

/- The text between quotes. -/
def ofText (text : String) : String :=
  let chars := text.toList
  let quote := quoteFor chars
  String.ofList (quote :: chars.flatMap (escape quote) ++ [quote])

end Quoted

end SymbolAtlas
