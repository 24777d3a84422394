/-
  Numbers of sixty-four bits with a floating point.

  A finite number is a whole number times a power of two. A
  decimal is read as the nearest such number, and a number is
  written with the fewest digits that read back as it.

  Key definitions:
    * `Binary64`, `Binary64.ofDecimal`
    * `Binary64.truncated`
    * `Binary64.text`
-/

------------------------------------------------------------
-- Rounding
------------------------------------------------------------

namespace SymbolAtlas

/- A finite number is `mantissa * 2 ^ exponent`, with a sign. -/
inductive Binary64 where
  | finite (negative : Bool) (mantissa : Nat) (exponent : Int)
  | infinite (negative : Bool)
  | notNumber
deriving DecidableEq, Repr

namespace Binary64

/- The highest of the fifty-three bits of a mantissa. -/
def leadingBit : Nat := Nat.pow 2 52

/- The least exponent, that of the smallest numbers. -/
def leastExponent : Int := -1074

/- The largest exponent of a finite number. -/
def largestExponent : Int := 971

/- A ratio of whole numbers scaled by a power of a base. -/
def scaled (base num den : Nat) (exponent : Int) : Nat × Nat :=
  if 0 ≤ exponent then (num * base.pow exponent.toNat, den)
  else (num, den * base.pow (-exponent).toNat)

/- The whole number nearest to a ratio, a half to the even. -/
def nearest (num den : Nat) : Nat :=
  let quotient := num / den
  let twice := 2 * (num % den)
  if twice > den ∨ (twice = den ∧ quotient % 2 = 1) then
    quotient + 1
  else quotient

/-
  The exponent at which a positive ratio has fifty-three bits,
  or the least one.
-/
def exponentFor (num den : Nat) : Int :=
  let guess : Int := (num.log2 : Int) - den.log2 - 52
  let (n, d) := scaled 2 num den (-guess)
  let exact :=
    if n / d < leadingBit then guess - 1
    else if 2 * leadingBit ≤ n / d then guess + 1
    else guess
  max exact leastExponent

/- The number nearest to a ratio. -/
def ofRatio (negative : Bool) (num den : Nat) : Binary64 :=
  if num = 0 then .finite negative 0 leastExponent
  else
    let exponent := exponentFor num den
    let (n, d) := scaled 2 num den (-exponent)
    let mantissa := nearest n d
    let (mantissa, exponent) :=
      if mantissa = 2 * leadingBit then (leadingBit, exponent + 1)
      else (mantissa, exponent)
    if exponent > largestExponent then .infinite negative
    else .finite negative mantissa exponent

/- The number of decimal digits of a whole number. -/
def digitCount (n : Nat) : Nat :=
  (Nat.toDigits 10 n).length

/-
  The number nearest to `mantissa * 10 ^ exponent`. Decimals
  far out of range need no exact arithmetic.
-/
def ofDecimal
    (negative : Bool)
    (mantissa : Nat)
    (exponent : Int) : Binary64 :=
  let size := exponent + digitCount mantissa
  if mantissa = 0 ∨ size < -400 then
    .finite negative 0 leastExponent
  else if size > 400 then .infinite negative
  else
    let (num, den) := scaled 10 mantissa 1 exponent
    ofRatio negative num den

/- The whole part of a number that is finite. -/
def truncated : Binary64 → Option Int
| .finite negative mantissa exponent =>
    let (num, den) := scaled 2 mantissa 1 exponent
    let whole : Int := ((num / den : Nat) : Int)
    some (if negative then -whole else whole)
| _ => none

end Binary64

end SymbolAtlas

------------------------------------------------------------
-- Shortest Decimals
------------------------------------------------------------

namespace SymbolAtlas

namespace Binary64

/- Digits, and the power of ten of the last one. -/
structure Decimal where
  digits : Nat
  exponent : Int
deriving DecidableEq, Repr

/- A number between two neighbours, all four times as large. -/
structure Interval where
  low : Nat
  value : Nat
  high : Nat
  exponent : Int
  closed : Bool

/- The reals that are read as a positive finite number. -/
def intervalOf (mantissa : Nat) (exponent : Int) : Interval :=
  let step :=
    if mantissa = leadingBit ∧ exponent > leastExponent then 1
    else 2
  ⟨4 * mantissa - step, 4 * mantissa, 4 * mantissa + 2,
    exponent - 2, mantissa % 2 = 0⟩

/- Compare a decimal with `bound * 2 ^ exponent`. -/
def compareWith (d : Decimal) (bound : Nat) (exponent : Int) :
    Ordering :=
  let (dn, dd) := scaled 10 d.digits 1 d.exponent
  let (bn, bd) := scaled 2 bound 1 exponent
  compare (dn * bd) (bn * dd)

/- The decimal reads back as the number. -/
def Interval.holds (i : Interval) (d : Decimal) : Bool :=
  let low := compareWith d i.low i.exponent
  let high := compareWith d i.high i.exponent
  (low == .gt || (i.closed && low == .eq)) &&
    (high == .lt || (i.closed && high == .eq))

/- The power of ten of the leading digit of a ratio. -/
def leadingExponent (num den : Nat) : Int :=
  if den ≤ num then (digitCount (num / den) : Int) - 1
  else
    let size := digitCount (den / num)
    if den ≤ num * Nat.pow 10 (size - 1) then 1 - (size : Int)
    else -(size : Int)

/- The nearer of the two decimals around a number, if it reads
  back, or the other one. -/
def onGrid? (i : Interval) (exponent : Int) : Option Decimal :=
  let (vn, vd) := scaled 2 i.value 1 i.exponent
  let (n, d) := scaled 10 vn vd (-exponent)
  let near : Decimal := ⟨nearest n d, exponent⟩
  let below : Decimal := ⟨n / d, exponent⟩
  let above : Decimal := ⟨n / d + 1, exponent⟩
  [near, below, above].find? i.holds

/- The fewest digits that read back. -/
def shortest (mantissa : Nat) (exponent : Int) : Decimal :=
  let i := intervalOf mantissa exponent
  let (num, den) := scaled 2 mantissa 1 exponent
  let leading := leadingExponent num den
  ((List.range 18).findSome? fun (count : Nat) =>
    onGrid? i (leading - count)).getD ⟨mantissa, 0⟩

end Binary64

end SymbolAtlas

------------------------------------------------------------
-- Texts
------------------------------------------------------------

namespace SymbolAtlas

namespace Binary64

/- Digits without the zeros at their end. -/
def significant (digits : List Char) : List Char :=
  (digits.reverse.dropWhile (· == '0')).reverse

/-
  Numbers from a ten-thousandth up to ten to the sixteenth are
  written with a point, others with an exponent.
-/
def layout (digits : List Char) (leading : Int) : List Char :=
  let count : Int := digits.length
  if -4 ≤ leading ∧ leading < 16 then
    if leading < 0 then
      '0' :: '.' ::
        List.replicate (-leading - 1).toNat '0' ++ digits
    else if count ≤ leading + 1 then
      digits ++ List.replicate (leading + 1 - count).toNat '0' ++
        ['.', '0']
    else
      digits.take (leading + 1).toNat ++
        '.' :: digits.drop (leading + 1).toNat
  else
    let power := (toString leading.natAbs).toList
    let padded := if power.length < 2 then '0' :: power else power
    let sign := if leading < 0 then '-' else '+'
    let front :=
      match digits with
      | first :: second :: rest => first :: '.' :: second :: rest
      | short => short
    front ++ 'e' :: sign :: padded

/- The text of a number. -/
def text : Binary64 → String
| .notNumber => "nan"
| .infinite negative => if negative then "-inf" else "inf"
| .finite negative mantissa exponent =>
    let front := if negative then "-" else ""
    if mantissa = 0 then front ++ "0.0"
    else
      let d := shortest mantissa exponent
      let all := Nat.toDigits 10 d.digits
      let leading := d.exponent + all.length - 1
      front ++ String.ofList (layout (significant all) leading)

end Binary64

end SymbolAtlas
