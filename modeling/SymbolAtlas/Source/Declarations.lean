import SymbolAtlas.Source.Token

/-
  The declarations at the top level of a token list.

  A reader goes over the tokens once. It remembers which word
  it waits to see named, the namespace it is in, the name that
  is being put together, and how deep the braces are.

  Key definitions:
    * `Declarations.Reader`, `Declarations.Reader.read`
    * `Declarations.ofTokens`
-/

------------------------------------------------------------
-- The Reader
------------------------------------------------------------

namespace SymbolAtlas

namespace Declarations

/- The words after which a name is expected. -/
inductive Expected where
  | space
  | declaration
deriving DecidableEq, Repr

/-
  What is known between two tokens. `level` counts the open
  braces and `topLevel` is the level of declarations that
  belong to the current namespace.
-/
structure Reader where
  expected : Option Expected := none
  space : String := ""
  name : String := ""
  level : Int := 0
  topLevel : Int := 0
  symbols : List String := []
deriving DecidableEq, Repr

namespace Reader

/- Keep a symbol the first time it is declared. -/
def declare (r : Reader) (symbol : String) : List String :=
  if r.symbols.contains symbol then r.symbols
  else r.symbols ++ [symbol]

/- The word that was waited for has its name, or none. -/
def settle (r : Reader) (kind : TokenKind) : Reader :=
  match r.expected with
  | some .space =>
      { r with
        space := if r.name.isEmpty then "" else r.name ++ "\\"
        topLevel := if kind = .braceOpen then 1 else 0
        expected := none }
  | some .declaration =>
      if !r.name.isEmpty && r.level == r.topLevel then
        { r with
          symbols := r.declare (r.space ++ r.name)
          expected := none }
      else { r with expected := none }
  | none => r

/- Braces change the level. -/
def nest (r : Reader) : TokenKind → Reader
| .braceOpen => { r with level := r.level + 1 }
| .braceClose => { r with level := r.level - 1 }
| _ => r

/- One more token. -/
def read (r : Reader) (token : Token) : Reader :=
  match token.kind with
  | .comment => r
  | .blank => r
  | .identifier =>
      if r.expected.isSome then
        { r with name := r.name ++ token.text }
      else r
  | .spaceWord => { r with expected := some .space, name := "" }
  | .declarationWord =>
      { r with expected := some .declaration, name := "" }
  | kind => (r.settle kind).nest kind

end Reader

end Declarations

end SymbolAtlas

------------------------------------------------------------
-- Symbols of a Token List
------------------------------------------------------------

namespace SymbolAtlas

namespace Declarations

/- The symbols declared at the top level, each once. -/
def ofTokens (tokens : List Token) : List String :=
  (tokens.foldl Reader.read {}).symbols

end Declarations

end SymbolAtlas
