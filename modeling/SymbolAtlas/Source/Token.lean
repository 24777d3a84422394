/-
  Tokens of a source text, as far as declarations need them.

  Key definitions:
    * `TokenKind`, `Token`
-/

namespace SymbolAtlas

/- The few kinds of tokens that matter to declarations. -/
inductive TokenKind where
  | spaceWord
  | declarationWord
  | identifier
  | braceOpen
  | braceClose
  | comment
  | blank
  | other
deriving DecidableEq, Repr

/- A token with its text. -/
structure Token where
  kind : TokenKind
  text : String
deriving DecidableEq, Repr

end SymbolAtlas
