import SymbolAtlas.Text.Blank
import SymbolAtlas.Text.Digit
import SymbolAtlas.Text.Word

/-
  Handlers: what a tag can call when it is pressed.

  Behind the equals sign of such a tag stands a name, its
  arguments in parentheses, or both. Arguments are literals:
  numbers, texts, a few constants, and tuples, sets and
  dictionaries of them. What is hashed in a set or as a key must
  not be a set or a dictionary. There are no lists, since a tag
  holds no square brackets.

  Key definitions:
    * `Handler.number?`, `Handler.quoted?`
    * `Handler.Token`, `Handler.tokens?`
    * `Handler.Kind`, `Handler.expression?`
    * `Handler.isLiteral`, `Handler.isRead`
-/

------------------------------------------------------------
-- Numbers
------------------------------------------------------------

namespace SymbolAtlas

namespace Handler

/- The digits a text starts with, which underscores may part. -/
def digitRun (isDigit : Char → Bool) :
    List Char → List Char × List Char
| '_' :: c :: rest =>
    if isDigit c then
      let (digits, after) := digitRun isDigit rest
      (c :: digits, after)
    else ([], '_' :: c :: rest)
| c :: rest =>
    if isDigit c then
      let (digits, after) := digitRun isDigit rest
      (c :: digits, after)
    else ([], c :: rest)
| [] => ([], [])

/- The decimal digits a text starts with. -/
def decimals (text : List Char) : List Char × List Char :=
  if (text.head?.any Char.isDigit) then digitRun Char.isDigit text
  else ([], text)

/- The digits of a number whose base is told by a letter. -/
def digitsOf? (letter : Char) : Option (Char → Bool) :=
  match letter.toLower with
  | 'x' => some fun c =>
      c.isDigit || ('a' ≤ c.toLower && c.toLower ≤ 'f')
  | 'o' => some fun c => '0' ≤ c && c ≤ '7'
  | 'b' => some fun c => c == '0' || c == '1'
  | _ => none

/- What is behind a part of a number that is there or not. -/
def behindFraction (text : List Char) : Option (List Char) :=
  match text with
  | '.' :: rest => some (decimals rest).2
  | _ => none

def behindExponent (text : List Char) : Option (List Char) :=
  match text with
  | c :: rest =>
      let digits :=
        match rest with
        | '+' :: more => decimals more
        | '-' :: more => decimals more
        | _ => decimals rest
      if c.toLower = 'e' && !digits.1.isEmpty then some digits.2
      else none
  | [] => none

/- A whole number does not start with a zero, except for zero. -/
def isWhole (digits : List Char) : Bool :=
  (digits.head? != some '0' || digits.all (· == '0')) &&
    decide (digits.length ≤ Digit.limit)

/- A number in base ten: is it imaginary, and what follows it? -/
def decimal? (text : List Char) :
    Option (Bool × List Char) :=
  let (digits, behind) := decimals text
  let fraction := behindFraction behind
  let hasDigits :=
    !digits.isEmpty || !(decimals (behind.drop 1)).1.isEmpty
  let exponent := behindExponent (fraction.getD behind)
  let after := exponent.getD (fraction.getD behind)
  if digits.isEmpty && fraction.isNone || !hasDigits then none
  else if after.head?.any (·.toLower == 'j') then
    some (true, after.drop 1)
  else if fraction.isSome || exponent.isSome || isWhole digits then
    some (false, after)
  else none

/- A number in any base. -/
def number? (text : List Char) : Option (Bool × List Char) :=
  match text with
  | '0' :: letter :: rest =>
      match digitsOf? letter with
      | some isDigit =>
          let (digits, after) := digitRun isDigit rest
          if digits.isEmpty then none else some (false, after)
      | none => decimal? text
  | _ => decimal? text

end Handler

end SymbolAtlas

------------------------------------------------------------
-- Quoted Texts
------------------------------------------------------------

namespace SymbolAtlas

namespace Handler

/- How a text is quoted. -/
structure Quotation where
  mark : Char
  isTripled : Bool
  isRaw : Bool
  isBytes : Bool
deriving DecidableEq, Repr

/- The marks at the end of a text. -/
def Quotation.ending (q : Quotation) : List Char :=
  List.replicate (if q.isTripled then 3 else 1) q.mark

/- The character can stand in the text. -/
def Quotation.holds (q : Quotation) (c : Char) : Bool :=
  (q.isTripled || c != '\n') &&
    (!q.isBytes || decide (c.toNat < 128))

/- What is behind so many hexadecimal digits. -/
def behindHex (width : Nat) (text : List Char) :
    Option (List Char) :=
  let digits := text.take width
  if digits.length = width &&
      (digitsOf? 'x').any (digits.all ·) then
    some (text.drop width)
  else none

/- The code point is none of those past the last. -/
def isCodePoint (digits : List Char) : Bool :=
  digits.take 2 == ['0', '0'] &&
    (digits[2]? == some '0' ||
      (digits[2]? == some '1' && digits[3]? == some '0'))

/- What is behind the name of a character. -/
def behindName : List Char → Option (List Char)
| '\x7b' :: rest =>
    let (name, after) := rest.span fun c =>
      c.isAlphanum || c == ' ' || c == '-'
    if name.isEmpty || after.head? != some '\x7d' then none
    else some (after.drop 1)
| _ => none

/- What is behind the rest of an escape. -/
def Quotation.behindEscape (q : Quotation) :
    List Char → Option (List Char)
| 'x' :: rest => behindHex 2 rest
| 'u' :: rest => if q.isBytes then some rest else behindHex 4 rest
| 'U' :: rest =>
    if q.isBytes then some rest
    else if isCodePoint rest then behindHex 8 rest
    else none
| 'N' :: rest => if q.isBytes then some rest else behindName rest
| c :: rest => if c = '\n' || q.holds c then some rest else none
| [] => none

/- What is behind the marks at the end of a quoted text. -/
def Quotation.behind? (q : Quotation) :
    (fuel : Nat) → List Char → Option (List Char)
| 0, _ => none
| _, [] => none
| fuel + 1, '\\' :: rest =>
    if q.isRaw then
      match rest with
      | c :: more =>
          if c = '\n' || q.holds c then q.behind? fuel more
          else none
      | [] => none
    else (q.behindEscape rest).bind (q.behind? fuel)
| fuel + 1, c :: rest =>
    if q.ending.isPrefixOf (c :: rest) then
      some ((c :: rest).drop q.ending.length)
    else if q.holds c then q.behind? fuel rest
    else none

/- The letters that can stand before a quoted text. -/
def fronts : List (String × Bool × Bool) :=
  [("", false, false), ("u", false, false), ("r", true, false),
    ("b", false, true), ("br", true, true), ("rb", true, true)]

/- A quoted text: is it one of bytes, and what follows it? -/
def quoted? (text : List Char) : Option (Bool × List Char) :=
  let (front, rest) := text.span Char.isAlpha
  (fronts.lookup (String.ofList (front.map Char.toLower))).bind
    fun (isRaw, isBytes) =>
      match rest with
      | mark :: more =>
          if mark != '\x22' && mark != '\x27' then none
          else
            let isTripled := [mark, mark].isPrefixOf more
            let q : Quotation := { mark, isTripled, isRaw, isBytes }
            let inner := if isTripled then more.drop 2 else more
            (q.behind? (inner.length + 1) inner).map (isBytes, ·)
      | [] => none

end Handler

end SymbolAtlas

------------------------------------------------------------
-- Tokens
------------------------------------------------------------

namespace SymbolAtlas

namespace Handler

/- The smallest parts of arguments. -/
inductive Token where
  | number (isImaginary : Bool)
  | quoted (isBytes : Bool)
  | constant
  | maker
  | mark (c : Char)
deriving DecidableEq, Repr

/- The constants, and the name that makes an empty set. -/
def named? (name : List Char) : Option Token :=
  if ["True", "False", "None"].contains (String.ofList name) then
    some .constant
  else if name = "set".toList then some .maker
  else none

/- A blank inside a line. -/
def isSpace (c : Char) : Bool :=
  c == ' ' || c == '\t' || c == '\x0c'

/- A line with nothing but a comment. -/
def isIdle (line : List Char) : Bool :=
  (line.dropWhile isSpace).head?.all (· == '#')

/- Lines end in one way only. -/
def oneEnding : List Char → List Char
| '\r' :: '\n' :: rest => '\n' :: oneEnding rest
| '\r' :: rest => '\n' :: oneEnding rest
| c :: rest => c :: oneEnding rest
| [] => []

/- How deep parentheses and braces can be nested. -/
def depthLimit : Nat := 200

/- A token that is more than one character. -/
def word? (text : List Char) : Option (Token × List Char) :=
  match quoted? text with
  | some (isBytes, after) => some (.quoted isBytes, after)
  | none =>
      match number? text with
      | some (isImaginary, after) =>
          some (.number isImaginary, after)
      | none =>
          if "...".toList.isPrefixOf text then
            some (.constant, text.drop 3)
          else
            let (name, after) := text.span fun c =>
              c.isAlphanum || c == '_'
            (named? name).map (·, after)

/-
  The tokens of a text. A line may only end inside parentheses
  or braces, or where nothing follows.
-/
def tokens? : (fuel depth : Nat) → List Char →
    Option (List Token)
| 0, _, _ => none
| _, _, [] => some []
| fuel + 1, depth, c :: rest =>
    if isSpace c then tokens? fuel depth rest
    else if c = '#' then
      tokens? fuel depth (rest.dropWhile (· != '\n'))
    else if c = '\n' then
      if 0 < depth then tokens? fuel depth rest
      else if (rest.splitOn '\n').all isIdle then some []
      else none
    else if c = '\\' then
      match rest with
      | '\n' :: d :: more => tokens? fuel depth (d :: more)
      | _ => none
    else if c = '(' || c = '\x7b' then
      if depth < depthLimit then
        (tokens? fuel (depth + 1) rest).map (.mark c :: ·)
      else none
    else if c = ')' || c = '\x7d' then
      (tokens? fuel (depth - 1) rest).map (.mark c :: ·)
    else if [',', ':', '+', '-'].contains c then
      (tokens? fuel depth rest).map (.mark c :: ·)
    else
      (word? (c :: rest)).bind fun (token, after) =>
        (tokens? fuel depth after).map (token :: ·)

end Handler

end SymbolAtlas

------------------------------------------------------------
-- Literals
------------------------------------------------------------

namespace SymbolAtlas

namespace Handler

/-
  What kind of value a literal has. Signs and sums need numbers,
  and what can be changed is not hashed.
-/
inductive Kind where
  | number (isImaginary : Bool)
  | signed (isImaginary : Bool)
  | fixed
  | changing
  | maker
deriving DecidableEq, Repr

/- The value can be a part of another one. -/
def Kind.isValue (kind : Kind) : Bool :=
  kind != .maker

/- The value can be hashed. -/
def Kind.isHashed (kind : Kind) : Bool :=
  kind.isValue && kind != .changing

/- The kind of a tuple. -/
def Kind.ofTuple? (kinds : List Kind) : Option Kind :=
  if kinds.all isHashed then some .fixed
  else if kinds.all isValue then some .changing
  else none

/- A number behind a sign. -/
def Kind.withSign? : Kind → Option Kind
| .number isImaginary => some (.signed isImaginary)
| _ => none

/- A sum is a real number and an imaginary one. -/
def Kind.sum? : Kind → Kind → Option Kind
| .number false, .number true => some .fixed
| .signed false, .number true => some .fixed
| _, _ => none

/- Quoted texts side by side are one, if all are of bytes or none. -/
def behindQuoted? (isBytes : Bool) :
    List Token → Option (List Token)
| .quoted other :: rest =>
    if other = isBytes then behindQuoted? isBytes rest else none
| rest => some rest

mutual

/- A number, perhaps with a sign or as part of a sum. -/
def expression? : (fuel : Nat) → List Token →
    Option (Kind × List Token)
| 0, _ => none
| fuel + 1, tokens =>
    (operand? fuel tokens).bind fun (first, rest) =>
      match rest with
      | .mark c :: more =>
          if c = '+' || c = '-' then
            (operand? fuel more).bind fun (second, after) =>
              (first.sum? second).map (·, after)
          else some (first, rest)
      | _ => some (first, rest)

def operand? : (fuel : Nat) → List Token →
    Option (Kind × List Token)
| 0, _ => none
| fuel + 1, .mark c :: rest =>
    if c = '+' || c = '-' then
      (called? fuel rest).bind fun (kind, after) =>
        kind.withSign?.map (·, after)
    else called? fuel (.mark c :: rest)
| fuel + 1, tokens => called? fuel tokens

/- The only thing that can be called makes a set. -/
def called? : (fuel : Nat) → List Token →
    Option (Kind × List Token)
| 0, _ => none
| fuel + 1, tokens =>
    (atom? fuel tokens).bind fun (kind, rest) =>
      match kind, rest with
      | .maker, .mark '(' :: .mark ')' :: after =>
          some (.changing, after)
      | _, _ => some (kind, rest)

def atom? : (fuel : Nat) → List Token →
    Option (Kind × List Token)
| 0, _ => none
| _, .number isImaginary :: rest => some (.number isImaginary, rest)
| _, .quoted isBytes :: rest =>
    (behindQuoted? isBytes rest).map (.fixed, ·)
| _, .constant :: rest => some (.fixed, rest)
| _, .maker :: rest => some (.maker, rest)
| _, .mark '(' :: .mark ')' :: rest => some (.fixed, rest)
| fuel + 1, .mark '(' :: rest =>
    (expression? fuel rest).bind fun (first, behind) =>
      match behind with
      | .mark ')' :: after => some (first, after)
      | .mark ',' :: more =>
          (items? fuel ')' more).bind fun (kinds, after) =>
            (Kind.ofTuple? (first :: kinds)).map (·, after)
      | _ => none
| _, .mark '\x7b' :: .mark '\x7d' :: rest =>
    some (.changing, rest)
| fuel + 1, .mark '\x7b' :: rest =>
    (expression? fuel rest).bind fun (_, behind) =>
      match behind with
      | .mark ':' :: _ =>
          (fields? fuel rest).bind fun (kinds, after) =>
            if kinds.all Kind.isValue then some (.changing, after)
            else none
      | _ =>
          (items? fuel '\x7d' rest).bind fun (kinds, after) =>
            if kinds.all Kind.isHashed then some (.changing, after)
            else none
| _, _ => none

/- Items up to a closing mark, which a comma may precede. -/
def items? : (fuel : Nat) → (closing : Char) → List Token →
    Option (List Kind × List Token)
| 0, _, _ => none
| fuel + 1, closing, tokens =>
    if tokens.head? = some (.mark closing) then
      some ([], tokens.drop 1)
    else
      (expression? fuel tokens).bind fun (first, rest) =>
        match rest with
        | .mark ',' :: more =>
            (items? fuel closing more).map fun (kinds, after) =>
              (first :: kinds, after)
        | .mark c :: after =>
            if c = closing then some ([first], after) else none
        | _ => none

/- The values of fields, whose keys are hashed. -/
def fields? : (fuel : Nat) → List Token →
    Option (List Kind × List Token)
| 0, _ => none
| fuel + 1, tokens =>
    if tokens.head? = some (.mark '\x7d') then
      some ([], tokens.drop 1)
    else
      (expression? fuel tokens).bind fun (key, behind) =>
        match behind with
        | .mark ':' :: rest =>
            if !key.isHashed then none
            else
              (expression? fuel rest).bind fun (value, more) =>
                match more with
                | .mark ',' :: others =>
                    (fields? fuel others).map
                      fun (kinds, after) => (value :: kinds, after)
                | .mark '\x7d' :: after => some ([value], after)
                | _ => none
        | _ => none

end

/-
  The text is a literal. It may be a tuple without parentheses,
  so it is read as if it stood in parentheses.
-/
def isLiteral (text : List Char) : Bool :=
  let lines := ((oneEnding text).splitOn '\n').dropWhile isIdle
  let body := ['\n'].intercalate lines
  if text.contains '\x00' || body.head?.any isSpace then false
  else
    match tokens? (body.length + 1) 0 body with
    | none => false
    | some tokens =>
        let closed := tokens ++ [.mark ')']
        let fuel := 8 * closed.length + 8
        !tokens.isEmpty &&
          match expression? fuel closed with
          | some (kind, [.mark ')']) => kind.isValue
          | some (first, .mark ',' :: more) =>
              match items? fuel ')' more with
              | some (kinds, []) => (first :: kinds).all Kind.isValue
              | _ => false
          | _ => false

end Handler

end SymbolAtlas

------------------------------------------------------------
-- Handlers
------------------------------------------------------------

namespace SymbolAtlas

namespace Handler

/- The text in parentheses on one line. -/
def isEnclosed (text : List Char) : Bool :=
  decide (2 ≤ text.length) && text.head? == some '(' &&
    text.getLast? == some ')' && !text.contains '\n'

/-
  The handler can be read: it is a name, arguments, or a name
  with its arguments.
-/
def isRead (handler : List Char) : Bool :=
  let text := Blank.trim handler
  let arguments := text.dropWhile fun c => Word.isPart c || c == '.'
  arguments.isEmpty ||
    isLiteral (if isEnclosed arguments then arguments else text)

end Handler

end SymbolAtlas
