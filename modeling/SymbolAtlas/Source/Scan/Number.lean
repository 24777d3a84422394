/-
  Numbers in a source text.

  A number with a point or an exponent needs no digits in front
  of them, so that even a single point is one.

  Key definitions:
    * `Scan.integerLength`, `Scan.floatLength`
-/

namespace SymbolAtlas

namespace Scan

/- Digits, with single underscores between them. -/
def digitRun (p : Char → Bool) : List Char → Nat
| [] => 0
| '_' :: c :: rest => if p c then 2 + digitRun p rest else 0
| c :: rest => if p c then 1 + digitRun p rest else 0

def isHexDigit (c : Char) : Bool :=
  c.isDigit || ('a' ≤ c && c ≤ 'f') || ('A' ≤ c && c ≤ 'F')

def isOctalDigit (c : Char) : Bool :=
  '0' ≤ c && c ≤ '7'

def isBinaryDigit (c : Char) : Bool :=
  c == '0' || c == '1'

/- A zero and what belongs to it, the system included. -/
def zeroLength : List Char → Nat
| x :: d :: rest =>
    if (x = 'x' || x = 'X') && isHexDigit d then
      2 + digitRun isHexDigit (d :: rest)
    else if (x = 'b' || x = 'B') && isBinaryDigit d then
      2 + digitRun isBinaryDigit (d :: rest)
    else if x = 'o' || x = 'O' then
      2 + digitRun isOctalDigit (d :: rest)
    else 1 + digitRun isOctalDigit (x :: d :: rest)
| ['o'] => 2
| ['O'] => 2
| text => 1 + digitRun isOctalDigit text

/- The length of the whole number at the front, or zero. -/
def integerLength : List Char → Nat
| '0' :: rest => zeroLength rest
| c :: rest =>
    if c.isDigit then 1 + digitRun Char.isDigit rest else 0
| [] => 0

/- The length of the exponent at the front, or zero. -/
def exponentLength : List Char → Nat
| e :: rest =>
    if e = 'e' || e = 'E' then
      match rest with
      | s :: d :: more =>
          if (s = '+' || s = '-') && d.isDigit then
            2 + digitRun Char.isDigit (d :: more)
          else if s.isDigit then
            1 + digitRun Char.isDigit (s :: d :: more)
          else 0
      | [d] => if d.isDigit then 2 else 0
      | [] => 0
    else 0
| [] => 0

/- The length of the number with a point or an exponent. -/
def floatLength (text : List Char) : Nat :=
  let whole := digitRun Char.isDigit text
  match text.drop whole with
  | '.' :: rest =>
      let fraction := digitRun Char.isDigit rest
      whole + 1 + fraction + exponentLength (rest.drop fraction)
  | rest =>
      let exponent := exponentLength rest
      if exponent = 0 then 0 else whole + exponent

end Scan

end SymbolAtlas
