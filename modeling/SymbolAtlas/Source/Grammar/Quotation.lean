import SymbolAtlas.Source.Grammar.Phrase

/-
  Strings, and the variables and code inside of them.

  Key definitions:
    * `Grammar.string`
    * `Grammar.stringPart`
    * `Grammar.labelled`
-/

namespace SymbolAtlas

namespace Grammar

/- Strings of all kinds. -/
def string : List (List Goal) :=
  [[.read .literal .other],
    [.read .opening .other, .go (.quoted .quotes)],
    [sign "<<<", .read .label .other, .go .labelled],
    [sign "<<<", sign "\"", .read .label .other, sign "\"",
      .go .labelled],
    [sign "<<<", sign "'", .read .label .other, sign "'",
      .go .rawText]]

/- The sign that ends a string. -/
def closing : Host → Goal
| .quotes => sign "\""
| .backticks => sign "`"
| .labels => .read (.labelAgain false) .other

/- The parts of a string and its end. -/
def quoted (host : Host) : List (List Goal) :=
  [[closing host], [.go (.stringPart host), .go (.quoted host)]]

/- Content, a variable, or code between braces. -/
def stringPart (host : Host) : List (List Goal) :=
  [[.read (.content host false) .other],
    [.go .holder, .go (.holderTail host)],
    sign "$" :: inBraces [.go (.expression .whole)],
    inBraces [.go (.expression .whole)]]

/- What may belong to a variable in a string. -/
def holderTail (host : Host) : List (List Goal) :=
  [[],
    [.read (.content host true) .other],
    [sign "[", .go .subscript, sign "]"],
    [sign "->", name]]

/- The key of an element in a string. -/
def subscript : List (List Goal) :=
  [[.read .integer .other],
    [sign "-", .read .integer .other],
    [name],
    [.go .holder]]

/- The lines of a long string, up to its label. -/
def labelled : List (List Goal) :=
  [[.read (.labelAgain true) .other],
    [.read .lineEnd .other, .go .labelledText]]

def labelledText : List (List Goal) :=
  [[closing .labels],
    [.read .lineEnd .other, .go .labelledText],
    [.go (.stringPart .labels), .go .labelledText]]

/- Lines that hold no variables, up to the label. -/
def rawText : List (List Goal) :=
  [[.read (.labelAgain true) .other],
    [.read .rawLines .other, .read (.labelAgain false) .other]]

end Grammar

end SymbolAtlas
