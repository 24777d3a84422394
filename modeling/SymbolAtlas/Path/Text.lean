/-
  Path texts as the masks and the search see them.

  A path text may use either separator. `withSlashes` is the
  normal form that masks are matched against, `isAbsolute`
  says which texts start from a root, a drive or a scheme,
  and `splitRecursive` cuts a mask path where its recursive
  part begins.

  Key definitions:
    * `Path.withSlashes`
    * `Path.isAbsolute`
    * `Path.splitRecursive`
    * `Path.escapeBrackets`, `Path.unescapeBrackets`
-/

------------------------------------------------------------
-- Separators
------------------------------------------------------------

namespace SymbolAtlas

namespace Path

/- Both slashes separate the segments of a path text. -/
def isSeparator (c : Char) : Bool :=
  c == '/' || c == '\\'

/- The forward slash stands for either separator. -/
def slashed (c : Char) : Char :=
  if c = '\\' then '/' else c

/- A path text with forward slashes only. -/
def withSlashes (path : String) : String :=
  String.ofList (path.toList.map slashed)

@[simp] theorem slashed_slashed
    (c : Char) :
    slashed (slashed c) = slashed c := by
  unfold slashed
  split <;> simp_all

@[simp] theorem withSlashes_withSlashes
    (path : String) :
    withSlashes (withSlashes path) = withSlashes path := by
  simp [withSlashes, Function.comp_def]

/- A text without the separators it ends in. -/
def dropTrailingSeparators (path : String) : String :=
  String.ofList
    (path.toList.reverse.dropWhile isSeparator).reverse

end Path

end SymbolAtlas

------------------------------------------------------------
-- Absolute Texts
------------------------------------------------------------

namespace SymbolAtlas

namespace Path

/-
  The letters of drives and schemes, whatever their case.
  The long s, the Kelvin sign and the two foreign forms of
  the letter i fold to ASCII letters and count as well.
-/
def isDriveLetter (c : Char) : Bool :=
  c.isAlpha || c == '\u017f' || c == '\u212a' ||
    c == '\u0130' || c == '\u0131'

/- The characters of a scheme after its first letter. -/
def isSchemeChar (c : Char) : Bool :=
  isDriveLetter c || c.isDigit ||
    c == '+' || c == '.' || c == '-'

/- A separator first, or a drive letter, a colon and one. -/
def startsAtRoot : List Char → Bool
| [] => false
| [c] => isSeparator c
| [c, _] => isSeparator c
| c :: d :: e :: _ =>
    isSeparator c ||
      (isDriveLetter c && d == ':' && isSeparator e)

/- A scheme name followed by a colon and two slashes. -/
def startsWithScheme : List Char → Bool
| [] => false
| c :: rest =>
    isDriveLetter c &&
      [':', '/', '/'].isPrefixOf (rest.dropWhile isSchemeChar)

/- Rooted paths, drive paths and addresses are absolute. -/
def isAbsolute (path : String) : Bool :=
  startsAtRoot path.toList || startsWithScheme path.toList

end Path

end SymbolAtlas

------------------------------------------------------------
-- The Recursive Part
------------------------------------------------------------

namespace SymbolAtlas

namespace Path

/- What follows a whole `**` segment and its separator. -/
def afterStars? : List Char → Option (List Char)
| '*' :: '*' :: s :: rest =>
    if isSeparator s then some rest else none
| _ => none

/-
  Cut a text at its first whole `**` segment. The flag says
  whether the text starts a segment.
-/
def cutAtStars? (fresh : Bool) :
    List Char → Option (List Char × List Char)
| [] => none
| c :: rest =>
    match fresh, afterStars? (c :: rest) with
    | true, some after => some ([], after)
    | _, _ =>
        (cutAtStars? (isSeparator c) rest).map
          fun (before, after) => (c :: before, after)

/- A path text taken apart at its recursive segment. -/
structure Split where
  base : String
  rest : String
  recursive : Bool
deriving DecidableEq, Repr

/- The text up to and with the last separator, and the rest. -/
def splitLast (path : List Char) : List Char × List Char :=
  let name := path.reverse.takeWhile (!isSeparator ·)
  let directory := path.reverse.dropWhile (!isSeparator ·)
  (directory.reverse, name.reverse)

/-
  The directory to start from and the mask that is left. Only
  segments that a separator follows can be recursive.
-/
def splitRecursive (path : String) : Split :=
  match splitLast path.toList with
  | ([], _) => ⟨"", path, false⟩
  | (directory, name) =>
      match cutAtStars? true directory with
      | some (before, after) =>
          ⟨String.ofList before,
            String.ofList (after ++ name), true⟩
      | none =>
          ⟨String.ofList directory, String.ofList name, false⟩

end Path

end SymbolAtlas

------------------------------------------------------------
-- Literal Brackets
------------------------------------------------------------

namespace SymbolAtlas

namespace Path

/- Square brackets have a meaning in wildcards. -/
def isBracket (c : Char) : Bool :=
  c == '[' || c == ']'

/- One bracket as a class that holds it alone. -/
def escapeBracket (c : Char) : List Char :=
  if isBracket c then ['[', c, ']'] else [c]

/- Every bracket as a class that holds it alone. -/
def escapeBrackets (path : String) : String :=
  String.ofList (path.toList.flatMap escapeBracket)

/- Classes that hold one bracket become that bracket. -/
def unescapeChars : List Char → List Char
| '[' :: c :: ']' :: rest =>
    if isBracket c then c :: unescapeChars rest
    else '[' :: unescapeChars (c :: ']' :: rest)
| c :: rest => c :: unescapeChars rest
| [] => []

/- Undo `escapeBrackets`, leaving other brackets alone. -/
def unescapeBrackets (path : String) : String :=
  String.ofList (unescapeChars path.toList)

end Path

end SymbolAtlas
