import SymbolAtlas.Data.Toml.Text

/-
  Numbers and moments in a TOML text.

  Single underscores may stand between the digits of a number.
  Whole numbers may be hexadecimal, octal or binary. A moment
  is a date, a time of day, or both with or without an offset.

  Key definitions:
    * `Toml.number?`
    * `Toml.moment?`
-/

------------------------------------------------------------
-- Numbers
------------------------------------------------------------

namespace SymbolAtlas

namespace Toml

/- More digits, each with at most one underscore before it. -/
def moreDigits (p : Char → Bool) :
    List Char → List Char × List Char
| '_' :: c :: rest =>
    if p c then
      let (digits, r) := moreDigits p rest
      (c :: digits, r)
    else ([], '_' :: c :: rest)
| c :: rest =>
    if p c then
      let (digits, r) := moreDigits p rest
      (c :: digits, r)
    else ([], c :: rest)
| [] => ([], [])

/- At least one digit. -/
def digits? (p : Char → Bool) : List Char → Read (List Char)
| c :: rest =>
    if p c then
      let (digits, r) := moreDigits p rest
      some (c :: digits, r)
    else none
| [] => none

/- The value of a digit in any base up to sixteen. -/
def digitValue (c : Char) : Nat :=
  (Json.hexValue? c).getD 0

def valueIn (base : Nat) (digits : List Char) : Nat :=
  digits.foldl (fun n c => base * n + digitValue c) 0

/- The digits of a base are those with a smaller value. -/
def isDigitIn (base : Nat) (c : Char) : Bool :=
  (Json.hexValue? c).any (· < base)

/- A whole number in a base that is named by a letter. -/
def based? : List Char → Read Datum
| '0' :: mark :: rest =>
    let base :=
      match mark with
      | 'x' => 16
      | 'o' => 8
      | 'b' => 2
      | _ => 0
    (digits? (isDigitIn base) rest).map
      fun (digits, r) => (.int (valueIn base digits), r)
| _ => none

/- The sign of a number and what follows. -/
def sign (text : List Char) : Bool × List Char :=
  match text with
  | '-' :: rest => (true, rest)
  | '+' :: rest => (false, rest)
  | _ => (false, text)

/- The whole part of a number; only zero starts with a zero. -/
def whole? : List Char → Read (List Char)
| '0' :: rest => some (['0'], rest)
| text => digits? Char.isDigit text

/- The digits behind a point, if there are any. -/
def fraction (text : List Char) : List Char × List Char :=
  match text with
  | '.' :: rest => (digits? Char.isDigit rest).getD ([], text)
  | _ => ([], text)

/- An exponent, if there is one. -/
def exponent? : List Char → Read Int
| c :: rest =>
    if c == 'e' || c == 'E' then
      let (negative, body) := sign rest
      (digits? Char.isDigit body).map fun (digits, r) =>
        let n : Int := valueIn 10 digits
        (if negative then -n else n, r)
    else none
| [] => none

def negateIf (negative : Bool) (n : Int) : Int :=
  if negative then -n else n

/- A decimal number. -/
def decimal? (text : List Char) : Read Datum :=
  let (negative, body) := sign text
  (whole? body).bind fun (whole, rest) =>
    let (decimals, afterFraction) := fraction rest
    let mantissa := valueIn 10 (whole ++ decimals)
    let places : Int := decimals.length
    match exponent? afterFraction with
    | some (power, after) =>
        some (.real (.ofDecimal negative mantissa (power - places)),
          after)
    | none =>
        if decimals.isEmpty then
          if whole.length ≤ Datum.digitLimit then
            some (.int (negateIf negative mantissa), afterFraction)
          else none
        else
          some (.real (.ofDecimal negative mantissa (-places)),
            afterFraction)

/- The words for numbers that are not finite. -/
def wordNumber? (text : List Char) : Read Datum :=
  let (negative, body) := sign text
  match body with
  | 'i' :: 'n' :: 'f' :: rest =>
      some (.real (.infinite negative), rest)
  | 'n' :: 'a' :: 'n' :: rest => some (.real .notNumber, rest)
  | _ => none

/- A number. -/
def number? (text : List Char) : Read Datum :=
  ((based? text).or (decimal? text)).or (wordNumber? text)

end Toml

end SymbolAtlas

------------------------------------------------------------
-- Moments
------------------------------------------------------------

namespace SymbolAtlas

namespace Toml

/- Exactly so many digits, as a number in some range. -/
def fixed? (count low high : Nat) (text : List Char) :
    Option (Nat × List Char) :=
  let digits := text.take count
  let n := valueIn 10 digits
  if digits.length = count ∧ digits.all Char.isDigit ∧
      low ≤ n ∧ n ≤ high then
    some (n, text.drop count)
  else none

/- A given character. -/
def mark? (c : Char) : List Char → Option (List Char)
| d :: rest => if c = d then some rest else none
| [] => none

/- Six digits of a fraction count; the others are passed over. -/
def micros (text : List Char) : Nat × List Char :=
  match text with
  | '.' :: rest =>
      let digits := rest.takeWhile Char.isDigit
      if digits.isEmpty then (0, text)
      else
        let kept := digits.take 6
        (valueIn 10 kept * Nat.pow 10 (6 - kept.length),
          rest.dropWhile Char.isDigit)
  | _ => (0, text)

/- A time of day. -/
def clock? (text : List Char) : Option (Clock × List Char) := do
  let (hour, rest) ← fixed? 2 0 23 text
  let (minute, rest) ← fixed? 2 0 59 (← mark? ':' rest)
  let (second, rest) ← fixed? 2 0 59 (← mark? ':' rest)
  let (micro, rest) := micros rest
  return (⟨hour, minute, second, micro⟩, rest)

/- The shape of a date. -/
def date? (text : List Char) : Option (Date × List Char) := do
  let (year, rest) ← fixed? 4 0 9999 text
  let (month, rest) ← fixed? 2 1 12 (← mark? '-' rest)
  let (day, rest) ← fixed? 2 1 31 (← mark? '-' rest)
  return (⟨year, month, day⟩, rest)

def isLeap (year : Nat) : Bool :=
  year % 4 == 0 && (year % 100 != 0 || year % 400 == 0)

def daysIn (year month : Nat) : Nat :=
  if month = 2 then (if isLeap year then 29 else 28)
  else if [4, 6, 9, 11].contains month then 30
  else 31

/- The date is one of the calendar, which begins with year 1. -/
def isReal (d : Date) : Bool :=
  decide (1 ≤ d.year) && decide (d.day ≤ daysIn d.year d.month)

/- Minutes east of Greenwich, if an offset is given. -/
def offset (text : List Char) : Option Int × List Char :=
  let signed (negative : Bool) (rest : List Char) :=
    (do
      let (hours, r) ← fixed? 2 0 23 rest
      let (minutes, r) ← fixed? 2 0 59 (← mark? ':' r)
      let n : Int := 60 * hours + minutes
      return (some (negateIf negative n), r)).getD (none, text)
  match text with
  | 'Z' :: rest => (some 0, rest)
  | 'z' :: rest => (some 0, rest)
  | '+' :: rest => signed false rest
  | '-' :: rest => signed true rest
  | _ => (none, text)

/- A date, maybe with a time of day behind it. -/
def dateTime? (text : List Char) :
    Option (Moment × List Char) := do
  let (d, rest) ← date? text
  if !isReal d then none
  let timed : Option (Clock × List Char) :=
    match rest with
    | c :: more =>
        if c == 'T' || c == 't' || c == ' ' then clock? more
        else none
    | [] => none
  match timed with
  | none => return (.date d, rest)
  | some (clock, after) =>
      let (minutes, last) := offset after
      return (.dateTime d clock minutes, last)

/- A moment. What looks like a date must be one. -/
def moment? (text : List Char) : Read Moment :=
  if (date? text).isSome then dateTime? text
  else (clock? text).map fun (c, r) => (.time c, r)

end Toml

end SymbolAtlas
