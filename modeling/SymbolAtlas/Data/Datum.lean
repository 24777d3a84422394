import SymbolAtlas.Data.Binary64
import SymbolAtlas.Data.Keyed
import SymbolAtlas.Error
import SymbolAtlas.Text.Blank
import SymbolAtlas.Text.Digit

/-
  Data as files of settings and caches hold them.

  A datum has a text: a string is its own text, anything else
  is shown the way it would be inside a list. Numbers that are
  too long cannot be shown, and neither can parts that are nested
  too deep. A datum may also stand for a whole number.

  Key definitions:
    * `Moment`, `Datum`
    * `Datum.shown`, `Datum.asText`
    * `Datum.trouble?`, why a datum cannot be shown
    * `Datum.intOfText?`
-/

------------------------------------------------------------
-- Moments
------------------------------------------------------------

namespace SymbolAtlas

structure Date where
  year : Nat
  month : Nat
  day : Nat
deriving DecidableEq, Repr

structure Clock where
  hour : Nat
  minute : Nat
  second : Nat
  micro : Nat
deriving DecidableEq, Repr

/- A point in time, with the minutes east of Greenwich. -/
inductive Moment where
  | date (d : Date)
  | time (c : Clock)
  | dateTime (d : Date) (c : Clock) (offset : Option Int)
deriving DecidableEq, Repr

namespace Moment

/- A number with leading zeros. -/
def padded (width n : Nat) : String :=
  let digits := Nat.toDigits 10 n
  String.ofList
    (List.replicate (width - digits.length) '0' ++ digits)

def dateText (d : Date) : String :=
  padded 4 d.year ++ "-" ++ padded 2 d.month ++ "-" ++
    padded 2 d.day

def clockText (c : Clock) : String :=
  padded 2 c.hour ++ ":" ++ padded 2 c.minute ++ ":" ++
    padded 2 c.second ++
    if c.micro = 0 then "" else "." ++ padded 6 c.micro

def offsetText (minutes : Int) : String :=
  let sign := if minutes < 0 then "-" else "+"
  sign ++ padded 2 (minutes.natAbs / 60) ++ ":" ++
    padded 2 (minutes.natAbs % 60)

/- The moment as people write it. -/
def text : Moment → String
| .date d => dateText d
| .time c => clockText c
| .dateTime d c offset =>
    dateText d ++ " " ++ clockText c ++
      match offset with
      | some minutes => offsetText minutes
      | none => ""

def dateFields (d : Date) : List Nat :=
  [d.year, d.month, d.day]

/- Seconds and microseconds are left out when they are zero. -/
def clockFields (c : Clock) : List Nat :=
  if c.micro ≠ 0 then [c.hour, c.minute, c.second, c.micro]
  else if c.second ≠ 0 then [c.hour, c.minute, c.second]
  else [c.hour, c.minute]

def listed (fields : List Nat) : String :=
  ", ".intercalate (fields.map toString)

/- An offset as a zone. Days may be negative, seconds not. -/
def zoneShown (minutes : Int) : String :=
  if minutes = 0 then "datetime.timezone.utc"
  else
    let seconds := minutes * 60
    let days := Int.fdiv seconds 86400
    let rest := Int.fmod seconds 86400
    let front :=
      if days = 0 then "" else "days=" ++ toString days ++ ", "
    "datetime.timezone(datetime.timedelta(" ++ front ++
      "seconds=" ++ toString rest ++ "))"

/- The moment as an element of a list is shown. -/
def shown : Moment → String
| .date d => "datetime.date(" ++ listed (dateFields d) ++ ")"
| .time c => "datetime.time(" ++ listed (clockFields c) ++ ")"
| .dateTime d c offset =>
    "datetime.datetime(" ++
      listed (dateFields d ++ clockFields c) ++
      (match offset with
       | some minutes => ", tzinfo=" ++ zoneShown minutes
       | none => "") ++ ")"

end Moment

end SymbolAtlas

------------------------------------------------------------
-- Data
------------------------------------------------------------

namespace SymbolAtlas

/- A value read from a file. -/
inductive Datum where
  | null
  | bool (b : Bool)
  | int (n : Int)
  | real (x : Binary64)
  | text (s : String)
  | moment (m : Moment)
  | list (items : List Datum)
  | record (fields : List (String × Datum))
deriving Repr, Inhabited

namespace Datum

mutual

/- A datum as an element of a list is shown. -/
def shown : Datum → String
| .null => "None"
| .bool b => if b then "True" else "False"
| .int n => toString n
| .real x => x.text
| .text s => Quoted.ofText s
| .moment m => m.shown
| .list items => "[" ++ ", ".intercalate (shownItems items) ++ "]"
| .record fields =>
    "\x7b" ++ ", ".intercalate (shownFields fields) ++ "\x7d"

def shownItems : List Datum → List String
| [] => []
| item :: items => shown item :: shownItems items

def shownFields : List (String × Datum) → List String
| [] => []
| (key, value) :: fields =>
    (Quoted.ofText key ++ ": " ++ shown value) ::
      shownFields fields

end

/- The text that a datum stands for. -/
def asText : Datum → String
| .text s => s
| .moment m => m.text
| other => other.shown

/- Longer numbers are neither read nor written. -/
def digitLimit : Nat := Digit.limit

/- The number can be written and read. -/
def isShort (n : Int) : Bool :=
  decide ((Nat.toDigits 10 n.natAbs).length ≤ digitLimit)

/-
  How many levels of parts within parts there usually is room
  for. It is the room that the stack of a process has left.
-/
def usualRoom : Nat := 900

/- Go down to the parts, if there is room for one more level. -/
def inParts (room : Nat) (look : Nat → Option Error) :
    Option Error :=
  match room with
  | 0 => some .tooDeep
  | room + 1 => look room

mutual

/-
  Why a datum cannot be shown: one of its numbers is too long,
  or its parts are nested deeper than there is room for.
-/
def trouble? : (room : Nat) → Datum → Option Error
| _, .int n => if isShort n then none else some .longNumber
| room, .list items => itemsTrouble? room items
| room, .record fields => fieldsTrouble? room fields
| _, _ => none

def itemsTrouble? : (room : Nat) → List Datum → Option Error
| _, [] => none
| room, item :: items =>
    (inParts room fun room => trouble? room item).or
      (itemsTrouble? room items)

def fieldsTrouble? : (room : Nat) → List (String × Datum) →
    Option Error
| _, [] => none
| room, (_, value) :: fields =>
    (inParts room fun room => trouble? room value).or
      (fieldsTrouble? room fields)

end

mutual

/- How many levels of parts within parts a datum has. -/
def levels : Datum → Nat
| .list items => itemsLevels items
| .record fields => fieldsLevels fields
| _ => 0

def itemsLevels : List Datum → Nat
| [] => 0
| item :: items => max (levels item + 1) (itemsLevels items)

def fieldsLevels : List (String × Datum) → Nat
| [] => 0
| (_, value) :: fields =>
    max (levels value + 1) (fieldsLevels fields)

end

/- Something made from a datum that can be shown. -/
def showing
    {α : Type}
    (room : Nat)
    (d : Datum)
    (made : α) : Except Error α :=
  match d.trouble? room with
  | some error => .error error
  | none => .ok made

/- A field of a record; the last one of a key counts. -/
def field? (d : Datum) (key : String) : Option Datum :=
  match d with
  | .record fields => (Keyed.ofList fields).get? key
  | _ => none

end Datum

end SymbolAtlas

------------------------------------------------------------
-- Whole Numbers
------------------------------------------------------------

namespace SymbolAtlas

namespace Datum

/- The four information separators do not surround numbers. -/
def surroundsNumber (c : Char) : Bool :=
  Blank.isBlank c &&
    !(decide (0x1C ≤ c.toNat) && decide (c.toNat ≤ 0x1F))

/- Digits of any script, single underscores between them. -/
def digits? : List Char → Option (List Nat)
| [] => none
| [c] => (Digit.value? c).map ([·])
| c :: '_' :: rest =>
    (Digit.value? c).bind fun d => (digits? rest).map (d :: ·)
| c :: rest =>
    (Digit.value? c).bind fun d => (digits? rest).map (d :: ·)

def natOfDigits (digits : List Nat) : Nat :=
  digits.foldl (fun n d => 10 * n + d) 0

/- The whole number that a text of digits stands for. -/
def natOfText? (text : List Char) : Option Nat :=
  (digits? text).bind fun digits =>
    if digits.length ≤ digitLimit then some (natOfDigits digits)
    else none

/- The whole number that a text stands for. -/
def intOfText? (text : String) : Option Int :=
  let front := text.toList.dropWhile surroundsNumber
  let chars :=
    (front.reverse.dropWhile surroundsNumber).reverse
  match chars with
  | '-' :: rest => (natOfText? rest).map fun n => -(n : Int)
  | '+' :: rest => (natOfText? rest).map Int.ofNat
  | rest => (natOfText? rest).map Int.ofNat

end Datum

end SymbolAtlas
