import SymbolAtlas.Data.Datum

/-
  Whole numbers on a command line.

  Blanks around a number, a plus sign, zeros in front of it and
  zeros behind a decimal point do not matter, and underscores
  may stand between digits. Only decimal digits are digits.

  Key definitions:
    * `WholeNumber.bare?`
    * `WholeNumber.ofText?`
-/

------------------------------------------------------------
-- Bare Numbers
------------------------------------------------------------

namespace SymbolAtlas

namespace WholeNumber

/- Digits without a zero in front, unless it is the only one. -/
def bareNat? : List Char → Option Nat
| [] => none
| ['0'] => some 0
| '0' :: _ => none
| digits =>
    if digits.all Char.isDigit &&
        decide (digits.length ≤ Datum.digitLimit) then
      some (digits.foldl (fun n c => 10 * n + (c.toNat - 48)) 0)
    else none

/- A number that needs no cleaning. -/
def bare? : List Char → Option Int
| '-' :: rest => (bareNat? rest).map fun n => -(n : Int)
| text => (bareNat? text).map Int.ofNat

end WholeNumber

end SymbolAtlas

------------------------------------------------------------
-- Cleaning
------------------------------------------------------------

namespace SymbolAtlas

namespace WholeNumber

/- Where the zeros in front of a number end. -/
def beginsNumber (c : Char) : Bool :=
  c.isDigit || c = '-'

/-
  What follows a zero in front of a number. One zero is kept
  before a decimal point, and the last character if there is
  nothing but zeros and underscores. A minus sign may follow.
-/
def afterZeros? : (last : Char) → List Char → Option (List Char)
| last, [] => some [last]
| last, c :: rest =>
    if c = '0' || c = '_' then afterZeros? c rest
    else if c = '.' then some (last :: c :: rest)
    else if beginsNumber c then some (c :: rest)
    else none

/- A number without zeros in front. -/
def withoutZeros? : List Char → Option (List Char)
| '0' :: rest => afterZeros? '0' rest
| c :: rest => if beginsNumber c then some (c :: rest) else none
| [] => none

/- The same behind a minus sign. -/
def withoutInnerZeros? : List Char → Option (List Char)
| '-' :: rest => (withoutZeros? rest).map ('-' :: ·)
| text => withoutZeros? text

/- A number without a fraction of zeros. -/
def withoutFraction (text : List Char) : List Char :=
  let whole := text.takeWhile (· != '.')
  match text.dropWhile (· != '.') with
  | _ :: '0' :: zeros => if zeros.all (· == '0') then whole else text
  | _ => text

/- Underscores stand between digits, one at a time. -/
def hasGoodUnderscores : List Char → Bool
| [] => true
| ['_'] => false
| '_' :: '_' :: _ => false
| _ :: rest => hasGoodUnderscores rest

/- A number without underscores, if they stand in good places. -/
def withoutUnderscores (text : List Char) : List Char :=
  if text.head? ≠ some '_' && hasGoodUnderscores text then
    text.filter (· != '_')
  else text

/- A number without a plus sign. -/
def withoutPlus? : List Char → Option (List Char)
| '+' :: '-' :: _ => none
| '+' :: rest => some rest
| text => some text

/- The separators of information are no blanks here. -/
def isBlank (c : Char) : Bool :=
  Datum.surroundsNumber c

/- A text without blanks around it. -/
def trimmed (text : List Char) : List Char :=
  ((text.dropWhile isBlank).reverse.dropWhile isBlank).reverse

/- The whole number that a text stands for. -/
def ofText? (text : String) : Option Int :=
  (bare? text.toList).or <| do
    let unsigned ← withoutPlus? (trimmed text.toList)
    let digits ← withoutInnerZeros? unsigned
    bare? (withoutUnderscores (withoutFraction digits))

end WholeNumber

end SymbolAtlas
