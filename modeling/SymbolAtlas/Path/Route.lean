/-
  Paths as lists of names.

  A route has a root and names. Empty names and single dots
  are dropped when a text is read; two dots are kept, because
  only a disk can say what lies above a link.

  Key definitions:
    * `Route`, `Route.ofText`, `Route.text`
    * `Route.parent`, `Route.name`, `Route.stem`
    * `Route.append`, `Route.below?`
-/

------------------------------------------------------------
-- Texts
------------------------------------------------------------

namespace SymbolAtlas

namespace Path

/- The parts of a text between slashes. -/
def segments (text : List Char) : List (List Char) :=
  text.splitOn '/'

/- The names between the slashes of a text. -/
def names (text : String) : List String :=
  (segments text.toList).map String.ofList

/- Names joined by slashes. -/
def joined (names : List String) : String :=
  "/".intercalate names

/- A text that starts at the root of the disk. -/
def isRooted (text : String) : Bool :=
  text.toList.head? == some '/'

/- A path below a directory text. -/
def child (directory name : String) : String :=
  if isRooted name then name
  else if directory.isEmpty ||
      directory.toList.getLast? == some '/' then directory ++ name
  else directory ++ "/" ++ name

/- The text behind the last slash. -/
def baseName (text : String) : String :=
  String.ofList
    (text.toList.reverse.takeWhile (· != '/')).reverse

end Path

end SymbolAtlas

------------------------------------------------------------
-- Routes
------------------------------------------------------------

namespace SymbolAtlas

/- A root, which is empty, one slash or two, and names. -/
structure Route where
  root : String
  names : List String
deriving DecidableEq, Repr

namespace Route

/- Exactly two slashes in front are a root of their own. -/
def rootOf : List Char → String
| '/' :: '/' :: '/' :: _ => "/"
| '/' :: '/' :: _ => "//"
| '/' :: _ => "/"
| _ => ""

/- Names that say nothing. -/
def isVoid (name : String) : Bool :=
  name.isEmpty || name == "."

def ofText (text : String) : Route :=
  ⟨rootOf text.toList, (Path.names text).filter (!isVoid ·)⟩

def text (r : Route) : String :=
  let body := r.root ++ Path.joined r.names
  if body.isEmpty then "." else body

def isRooted (r : Route) : Bool :=
  !r.root.isEmpty

/- One route behind another; a rooted one stands alone. -/
def append (base rest : Route) : Route :=
  if rest.isRooted then rest
  else ⟨base.root, base.names ++ rest.names⟩

instance : Append Route :=
  ⟨append⟩

/- The route without its last name. -/
def parent (r : Route) : Route :=
  ⟨r.root, r.names.dropLast⟩

def name (r : Route) : String :=
  r.names.getLast?.getD ""

/- The name up to its last dot, unless that dot is at an end. -/
def stem (r : Route) : String :=
  let chars := r.name.toList
  let suffix := chars.reverse.takeWhile (· != '.')
  let front := chars.take (chars.length - suffix.length - 1)
  if suffix.isEmpty || front.isEmpty ||
      suffix.length == chars.length then r.name
  else String.ofList front

/- The rest of a route below a base. -/
def below? (base r : Route) : Option Route :=
  if base.root = r.root ∧ base.names.isPrefixOf r.names then
    some ⟨"", r.names.drop base.names.length⟩
  else none

end Route

namespace Path

/- A path text in its normal form. -/
def normal (text : String) : String :=
  (Route.ofText text).text

end Path

end SymbolAtlas
