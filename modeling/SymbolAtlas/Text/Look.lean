import SymbolAtlas.Error
import SymbolAtlas.Text.Blank
import SymbolAtlas.Text.Colour

/-
  Looks: how a text is shown, described in words.

  The same look can be described in several ways. Its words may
  stand in any order, and some have a short form. A description
  that makes no sense is only compared letter by letter.

  Key definitions:
    * `Look`, `Look.read`
    * `Look.text`
    * `Look.normal`
-/

------------------------------------------------------------
-- Looks
------------------------------------------------------------

namespace SymbolAtlas

/- Features that are wanted or not, colours, and a link. -/
structure Look where
  features : List (String × Bool) := []
  colour : Option String := none
  background : Option String := none
  link : Option String := none
deriving DecidableEq, Repr

namespace Look

/- The features in the order in which they are told. -/
def featureNames : List String :=
  ["bold", "dim", "italic", "underline", "blink", "blink2",
    "reverse", "conceal", "strike", "underline2", "frame",
    "encircle", "overline"]

/- The short forms of features. -/
def shortForms : List (String × String) :=
  [("b", "bold"), ("d", "dim"), ("i", "italic"),
    ("u", "underline"), ("r", "reverse"), ("c", "conceal"),
    ("s", "strike"), ("uu", "underline2"), ("o", "overline")]

/- The feature that a word stands for. -/
def feature? (word : String) : Option String :=
  if featureNames.contains word then some word
  else shortForms.lookup word

/- A look with a feature, or without it. The last word counts. -/
def withFeature (l : Look) (name : String) (wanted : Bool) :
    Look :=
  { l with features := (name, wanted) :: l.features }

end Look

end SymbolAtlas

------------------------------------------------------------
-- Descriptions
------------------------------------------------------------

namespace SymbolAtlas

namespace Look

/- A word that stands alone: a feature or a colour. -/
def withWord (l : Look) (word : String) :
    Except Colour.Flaw Look :=
  match feature? word with
  | some name => .ok (l.withFeature name true)
  | none =>
      (Colour.read word).map fun colour => { l with colour }

/- A look, changed by the words of a description. -/
def read : Look → List String → Except Colour.Flaw Look
| l, [] => .ok l
| l, first :: rest =>
    let word := first.toLower
    if word = "on" then
      match rest with
      | [] => .error .unknown
      | colour :: more =>
          (Colour.read colour.toLower).bind fun background =>
            read { l with background } more
    else if word = "not" then
      match rest with
      | [] => .error .unknown
      | name :: more =>
          match feature? name with
          | some feature => read (l.withFeature feature false) more
          | none => .error .unknown
    else if word = "link" then
      match rest with
      | [] => .error .unknown
      | target :: more => read { l with link := target } more
    else (l.withWord word).bind fun changed => read changed rest

/- The words of a description that every look has. -/
def words (l : Look) : List String :=
  let features := featureNames.filterMap fun name =>
    (l.features.lookup name).map fun wanted =>
      if wanted then name else "not " ++ name
  let background := (l.background.map ("on " ++ ·)).toList
  let link := (l.link.map ("link " ++ ·)).toList
  features ++ l.colour.toList ++ background ++ link

/- The description that every look has. -/
def text (l : Look) : String :=
  if l.words.isEmpty then "none" else " ".intercalate l.words

/- The words of a text. -/
def split (description : List Char) : List String :=
  ((description.splitOnP Blank.isBlank).filter (!·.isEmpty)).map
    String.ofList

/-
  A description in the form that all of its like have. It cannot
  be told if a part of a mixed colour is no number.
-/
def normal (description : List Char) : Except Error String :=
  let trimmed := String.ofList (Blank.trim description)
  let look :=
    if trimmed = "none" then .ok {}
    else read {} (split description)
  match look with
  | .ok look => .ok look.text
  | .error .unknown => .ok trimmed.toLower
  | .error .noNumber => .error .noColour

end Look

end SymbolAtlas
