import SymbolAtlas.Text.Digit

/-
  Colours by name or by number.

  A word that is no colour is only unknown. But where three parts
  are to be mixed and one of them is no number, reading the word
  fails.

  Key definitions:
    * `Colour.names`
    * `Colour.Flaw`, `Colour.read`
-/

------------------------------------------------------------
-- Names
------------------------------------------------------------

namespace SymbolAtlas

namespace Colour

/- The colours of a terminal that have names, greys excepted. -/
def names : List String :=
  [
    "black", "red", "green", "yellow", "blue", "magenta", "cyan",
    "white", "bright_black", "bright_red", "bright_green",
    "bright_yellow", "bright_blue", "bright_magenta",
    "bright_cyan", "bright_white", "navy_blue", "dark_blue",
    "blue3", "blue1", "dark_green", "deep_sky_blue4",
    "dodger_blue3", "dodger_blue2", "green4", "spring_green4",
    "turquoise4", "deep_sky_blue3", "dodger_blue1", "green3",
    "spring_green3", "dark_cyan", "light_sea_green",
    "deep_sky_blue2", "deep_sky_blue1", "spring_green2", "cyan3",
    "dark_turquoise", "turquoise2", "green1", "spring_green1",
    "medium_spring_green", "cyan2", "cyan1", "dark_red",
    "deep_pink4", "purple4", "purple3", "blue_violet", "orange4",
    "medium_purple4", "slate_blue3", "royal_blue1", "chartreuse4",
    "dark_sea_green4", "pale_turquoise4", "steel_blue",
    "steel_blue3", "cornflower_blue", "chartreuse3", "cadet_blue",
    "sky_blue3", "steel_blue1", "pale_green3", "sea_green3",
    "aquamarine3", "medium_turquoise", "chartreuse2",
    "sea_green2", "sea_green1", "aquamarine1", "dark_slate_gray2",
    "dark_magenta", "dark_violet", "purple", "light_pink4",
    "plum4", "medium_purple3", "slate_blue1", "yellow4", "wheat4",
    "light_slate_grey", "light_slate_gray", "medium_purple",
    "light_slate_blue", "dark_olive_green3", "dark_sea_green",
    "light_sky_blue3", "sky_blue2", "dark_sea_green3",
    "dark_slate_gray3", "sky_blue1", "chartreuse1", "light_green",
    "pale_green1", "dark_slate_gray1", "red3",
    "medium_violet_red", "magenta3", "dark_orange3", "indian_red",
    "hot_pink3", "medium_orchid3", "medium_orchid",
    "medium_purple2", "dark_goldenrod", "light_salmon3",
    "rosy_brown", "medium_purple1", "gold3", "dark_khaki",
    "navajo_white3", "light_steel_blue3", "light_steel_blue",
    "yellow3", "dark_sea_green2", "light_cyan3",
    "light_sky_blue1", "green_yellow", "dark_olive_green2",
    "dark_sea_green1", "pale_turquoise1", "deep_pink3",
    "magenta2", "hot_pink2", "orchid", "medium_orchid1",
    "orange3", "light_pink3", "pink3", "plum3", "violet",
    "light_goldenrod3", "tan", "misty_rose3", "thistle3", "plum2",
    "khaki3", "light_goldenrod2", "light_yellow3",
    "light_steel_blue1", "yellow2", "dark_olive_green1",
    "honeydew2", "light_cyan1", "red1", "deep_pink2",
    "deep_pink1", "magenta1", "orange_red1", "indian_red1",
    "hot_pink", "dark_orange", "salmon1", "light_coral",
    "pale_violet_red1", "orchid2", "orchid1", "orange1",
    "sandy_brown", "light_salmon1", "light_pink1", "pink1",
    "plum1", "gold1", "navajo_white1", "misty_rose1", "thistle1",
    "yellow1", "light_goldenrod1", "khaki1", "wheat1",
    "cornsilk1"]

/- The shades of grey, in percent. -/
def shades : List Nat :=
  [
    0, 3, 7, 11, 15, 19, 23, 27, 30, 35, 37, 39, 42, 46, 50, 53,
    54, 58, 62, 63, 66, 69, 70, 74, 78, 82, 84, 85, 89, 93, 100]

/- Both spellings of the shades of grey. -/
def greys : List String :=
  shades.flatMap fun n => ["grey" ++ toString n, "gray" ++ toString n]

end Colour

end SymbolAtlas

------------------------------------------------------------
-- Numbers
------------------------------------------------------------

namespace SymbolAtlas

namespace Colour

/- What stands between a word with a parenthesis and another. -/
def between? (front : String) (text : List Char) :
    Option (List Char) :=
  if front.toList.isPrefixOf text && text.getLast? = some ')' then
    some (text.drop front.length).dropLast
  else none

/- A number that fits into eight bits. -/
def isOctet (digits : List Char) : Bool :=
  !digits.isEmpty && digits.all Char.isDigit &&
    decide (digits.foldl (fun n c => 10 * n + (c.toNat - 48)) 0 ≤ 255)

/- Six digits behind a number sign. -/
def isHex : List Char → Bool
| '#' :: digits =>
    decide (digits.length = 6) && digits.all fun c =>
      c.isDigit || ('a' ≤ c && c ≤ 'f')
| _ => false

/- One of the numbered colours. -/
def isNumbered (text : List Char) : Bool :=
  (between? "color(" text).any fun digits =>
    decide (digits.length ≤ 3) && isOctet digits

/- Red, green and blue, in digits of any script. -/
def mixed? (text : List Char) : Option (List (List Char)) :=
  (between? "rgb(" text).bind fun inner =>
    let parts := inner.splitOn ','
    if decide (parts.length = 3) &&
        parts.flatten.all (fun c => (Digit.value? c).isSome) then
      some parts
    else none

/- The digits are those of a number, if there are any. -/
def isNumber (digits : List Char) : Bool :=
  !digits.isEmpty && decide (digits.length ≤ Digit.limit)

/- A part of a mixed colour is at most 255. -/
def isShare (digits : List Char) : Bool :=
  decide ((digits.filterMap Digit.value?).foldl
    (fun n digit => 10 * n + digit) 0 ≤ 255)

/- A colour with a name or a number of its own. -/
def isListed (text : String) : Bool :=
  text = "default" || names.contains text || greys.contains text ||
    isHex text.toList || isNumbered text.toList

end Colour

end SymbolAtlas

------------------------------------------------------------
-- Reading
------------------------------------------------------------

namespace SymbolAtlas

namespace Colour

/- What can be wrong with a word for a colour. -/
inductive Flaw where
  | unknown
  | noNumber
deriving DecidableEq, Repr

/- A colour, in lower case. -/
def read (text : String) : Except Flaw String :=
  if isListed text then .ok text
  else
    match mixed? text.toList with
    | none => .error .unknown
    | some parts =>
        if !parts.all isNumber then .error .noNumber
        else if parts.all isShare then .ok text
        else .error .unknown

end Colour

end SymbolAtlas
