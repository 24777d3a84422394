import SymbolAtlas.Error
import SymbolAtlas.Source.Declarations
import SymbolAtlas.Source.Reader
import SymbolAtlas.Text.Utf8

/-
  Source texts: their tokens and the symbols they declare.

  Key definitions:
    * `SourceText.tokenize`
    * `SourceText.symbols`
-/

namespace SymbolAtlas

namespace SourceText

/- A token whose text shows octets that are no text. -/
def shown (foreign : Char) (t : Token) : Token :=
  { t with
    text := t.text.map fun c =>
      if c = foreign then Utf8.replacement else c }

/- The tokens of the octets of a source. -/
def tokenize
    (source : ByteArray)
    (path : Option String) : Except Error (List Token) :=
  let foreign := Scan.foreignTo (Utf8.decode source)
  match Reader.tokens? (Utf8.decodeWith foreign source) with
  | some tokens => .ok (tokens.map (shown foreign))
  | none => .error (.malformedSource path none)

/- The symbols that a source declares. -/
def symbols
    (source : ByteArray)
    (path : Option String) : Except Error (List String) :=
  (tokenize source path).map Declarations.ofTokens

end SourceText

end SymbolAtlas
