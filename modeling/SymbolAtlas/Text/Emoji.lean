import SymbolAtlas.Text.Blank
import SymbolAtlas.Text.Emoji.Table

/-
  Short names for pictures in texts.

  A name between two colons stands for a picture, whatever the
  case of its letters. A suffix may ask for the plain or the
  coloured form. Names that are not known stay as they are.

  Key definitions:
    * `Emoji.find?`, the picture of a name
    * `Emoji.replaced`
-/

------------------------------------------------------------
-- Tables
------------------------------------------------------------

namespace SymbolAtlas

namespace Emoji

/- A picture and its names. -/
structure Entry where
  picture : List Char
  names : List String

/- A number in hexadecimal digits. -/
def hexValue (digits : List Char) : Nat :=
  digits.foldl (fun n c =>
    n * 16 + (if c.isDigit then c.toNat - 48 else c.toNat - 55)) 0

/- The characters of a list of code points. -/
def pictureOf (codes : List Char) : List Char :=
  (codes.splitOn '-').map fun digits => Char.ofNat (hexValue digits)

/- The flag of a region with two letters. -/
def flagOf (letters : List Char) : List Char :=
  letters.map fun c => Char.ofNat (0x1F1E6 + (c.toNat - 65))

/- The entries of a table. -/
def entries (read : List Char → List Char)
    (table : List String) : List Entry :=
  table.map fun entry =>
    match entry.toList.splitOn ' ' with
    | [] => ⟨[], []⟩
    | codes :: names => ⟨read codes, names.map String.ofList⟩

/- The picture of a name in a table. -/
def lookup? (table : List Entry) (name : String) :
    Option (List Char) :=
  (table.find? (·.names.contains name)).map Entry.picture

/- The tones of skin, as suffixes of a name. -/
def tones : List (String × Char) :=
  [("_light_skin_tone", Char.ofNat 0x1F3FB),
    ("_medium-light_skin_tone", Char.ofNat 0x1F3FC),
    ("_medium_skin_tone", Char.ofNat 0x1F3FD),
    ("_medium-dark_skin_tone", Char.ofNat 0x1F3FE),
    ("_dark_skin_tone", Char.ofNat 0x1F3FF)]

/- A picture in a tone. The tone takes the selector's place. -/
def inTone (tone : Char) : List Char → List Char
| [] => [tone]
| c :: rest =>
    c :: tone ::
      (if rest.head? = some '\ufe0f' then rest.tail else rest)

/- What comes before a suffix. -/
def beforeSuffix? (suffix name : String) : Option String :=
  let front := name.length - suffix.length
  if name.toList.drop front = suffix.toList then
    some (String.ofList (name.toList.take front))
  else none

/- The picture of a name that ends in a tone. -/
def toned? (name : String) : Option (List Char) :=
  tones.findSome? fun (suffix, tone) =>
    (beforeSuffix? suffix name).bind fun base =>
      (lookup? (entries pictureOf tonedTable) base).map
        (inTone tone)

/- The flag of a region, with or without words in front. -/
def flag? (name : String) : Option (List Char) :=
  let flags := entries flagOf flagTable
  let words := "flag_for_"
  (lookup? flags name).or
    (if words.toList.isPrefixOf name.toList then
      lookup? flags (String.ofList (name.toList.drop words.length))
     else none)

/- The picture of a name. -/
def find? (name : String) : Option (List Char) :=
  (lookup? (entries pictureOf plainTable) name)
    |>.or (lookup? (entries pictureOf tonedTable) name)
    |>.or (flag? name)
    |>.or (toned? name)

end Emoji

end SymbolAtlas

------------------------------------------------------------
-- Texts
------------------------------------------------------------

namespace SymbolAtlas

namespace Emoji

/- A letter in lower case, as far as names have such letters. -/
def lower (c : Char) : Char :=
  let n := c.toNat
  if c.isUpper then c.toLower
  else if 0xC0 ≤ n ∧ n ≤ 0xDE ∧ n ≠ 0xD7 then Char.ofNat (n + 32)
  else if n = 0x212A then 'k'
  else if n = 0x212B then 'å'
  else c

/- The form of a picture: as it is, plain or coloured. -/
def forms : List (String × List Char) :=
  [("-emoji:", ['\ufe0f']), ("-text:", ['\ufe0e']), (":", [])]

/- The end of a name, with the form it asks for. -/
def ending? (text : List Char) : Option (List Char × List Char) :=
  forms.findSome? fun (mark, form) =>
    if mark.toList.isPrefixOf text then
      some (form, text.drop mark.length)
    else none

/- A name behind a colon. -/
structure Mention where
  name : List Char
  form : List Char
  rest : List Char

/- The shortest name at the front of a text. -/
def mention? : List Char → Option Mention
| [] => none
| c :: rest =>
    match ending? (c :: rest) with
    | some (form, after) => some ⟨[], form, after⟩
    | none =>
        if Blank.isBlank c then none
        else
          (mention? rest).map fun m =>
            { m with name := c :: m.name }

/- The picture of a mention. -/
def Mention.picture? (m : Mention) : Option (List Char) :=
  (find? (String.ofList (m.name.map lower))).map (· ++ m.form)

/- Put pictures in the place of names. -/
def replacedFrom : (fuel : Nat) → List Char → List Char
| 0, text => text
| _, [] => []
| fuel + 1, c :: rest =>
    if c ≠ ':' then c :: replacedFrom fuel rest
    else
      match mention? rest with
      | none => c :: replacedFrom fuel rest
      | some m =>
          let taken := rest.take (rest.length - m.rest.length)
          (m.picture?.getD (c :: taken)) ++
            replacedFrom fuel m.rest

/- A text with pictures in the place of their names. -/
def replaced (text : List Char) : List Char :=
  replacedFrom (text.length + 1) text

end Emoji

end SymbolAtlas
