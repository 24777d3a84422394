import SymbolAtlas.Source.Declarations

/-
  The outline of a source: its sections and their items.

  An item is a declaration with its block, or a statement, which
  declares nothing at the top level. Sections name the space of
  their items, and either follow each other or have braces.

  Key definitions:
    * `Outline.Block`, `Outline.Statement`, `Outline.Declaration`
    * `Outline`, `Outline.tokens`, `Outline.names`
-/

------------------------------------------------------------
-- Blocks
------------------------------------------------------------

namespace SymbolAtlas

/- The token is neither a comment nor blank. -/
def Token.isSolid (t : Token) : Bool :=
  t.kind != .comment && t.kind != .blank

namespace Outline

/-
  The depth of braces behind some tokens, unless one of them
  closes what was not opened.
-/
def depthBehind : (depth : Nat) → List Token → Option Nat
| depth, [] => some depth
| depth, token :: rest =>
    match token.kind with
    | .braceOpen => depthBehind (depth + 1) rest
    | .braceClose =>
        match depth with
        | 0 => none
        | outer + 1 => depthBehind outer rest
    | _ => depthBehind depth rest

/- Tokens whose braces match, none of which begins a space. -/
structure Block where
  tokens : List Token
  balanced : depthBehind 0 tokens = some 0 := by decide
  spaceless : ∀ token ∈ tokens, token.kind ≠ .spaceWord := by
    decide

/- A block with the braces around it. -/
structure Braces where
  opening : String := "\x7b"
  block : Block
  closing : String := "\x7d"

def Braces.tokens (b : Braces) : List Token :=
  ⟨.braceOpen, b.opening⟩ ::
    (b.block.tokens ++ [⟨.braceClose, b.closing⟩])

end Outline

end SymbolAtlas

------------------------------------------------------------
-- Items
------------------------------------------------------------

namespace SymbolAtlas

namespace Outline

/- A word that may be a name, or a token that says nothing. -/
inductive Plain where
  | word (text : String)
  | sign (text : String)

def Plain.token : Plain → Token
| .word text => ⟨.identifier, text⟩
| .sign text => ⟨.other, text⟩

/- What a statement can end with. -/
inductive Ending where
  | sign (text : String)
  | braces (b : Braces)

def Ending.tokens : Ending → List Token
| .sign text => [⟨.other, text⟩]
| .braces b => b.tokens

/-
  An ending, or one right behind a keyword that would declare
  something if a name followed.
-/
structure Close where
  keyword : Option String := none
  ending : Ending

def Close.tokens (c : Close) : List Token :=
  match c.keyword with
  | none => c.ending.tokens
  | some text => ⟨.declarationWord, text⟩ :: c.ending.tokens

/- A part of a statement. -/
inductive Piece where
  | word (text : String)
  | close (c : Close)

def Piece.tokens : Piece → List Token
| .word text => [⟨.identifier, text⟩]
| .close c => c.tokens

/- Tokens that declare nothing, up to a sign or a brace. -/
structure Statement where
  pieces : List Piece := []
  last : Close

def Statement.tokens (s : Statement) : List Token :=
  s.pieces.flatMap Piece.tokens ++ s.last.tokens

/- What stands between a name and its braces. -/
structure Header where
  first : String
  rest : List Plain := []

def Header.tokens (h : Header) : List Token :=
  ⟨.other, h.first⟩ :: h.rest.map Plain.token

/- A name that is declared, with its header and its braces. -/
structure Declaration where
  keyword : String
  name : String
  header : Option Header := none
  body : Braces
  named : name ≠ "" := by decide

def Declaration.tokens (d : Declaration) : List Token :=
  ⟨.declarationWord, d.keyword⟩ :: ⟨.identifier, d.name⟩ ::
    ((d.header.map Header.tokens).getD [] ++ d.body.tokens)

inductive Item where
  | declaration (d : Declaration)
  | statement (s : Statement)

def Item.tokens : Item → List Token
| .declaration d => d.tokens
| .statement s => s.tokens

def Item.name? : Item → Option String
| .declaration d => some d.name
| .statement _ => none

/- The names that items declare in a space. -/
def declared (space : String) (items : List Item) : List String :=
  (items.filterMap Item.name?).map (space ++ ·)

end Outline

end SymbolAtlas

------------------------------------------------------------
-- Outlines
------------------------------------------------------------

namespace SymbolAtlas

namespace Outline

/- A space that lasts until the next one. -/
structure FlatSection where
  keyword : String := "namespace"
  name : String
  sign : String := ";"
  items : List Item
  named : name ≠ "" := by decide

def FlatSection.tokens (s : FlatSection) : List Token :=
  [⟨.spaceWord, s.keyword⟩, ⟨.identifier, s.name⟩,
    ⟨.other, s.sign⟩] ++ s.items.flatMap Item.tokens

def FlatSection.names (s : FlatSection) : List String :=
  declared (s.name ++ "\\") s.items

/- A space with braces, which may have no name. -/
structure BracedSection where
  keyword : String := "namespace"
  name : Option String
  opening : String := "\x7b"
  items : List Item
  closing : String := "\x7d"
  named : name ≠ some "" := by decide

def BracedSection.tokens (s : BracedSection) : List Token :=
  ⟨.spaceWord, s.keyword⟩ ::
    ((s.name.map (⟨.identifier, ·⟩)).toList ++
      ⟨.braceOpen, s.opening⟩ ::
        (s.items.flatMap Item.tokens ++
          [⟨.braceClose, s.closing⟩]))

def BracedSection.names (s : BracedSection) : List String :=
  declared ((s.name.map (· ++ "\\")).getD "") s.items

end Outline

/-
  Items and the spaces behind them, or statements and the spaces
  with braces behind them.
-/
inductive Outline where
  | flat
      (items : List Outline.Item)
      (sections : List Outline.FlatSection)
  | braced
      (statements : List Outline.Statement)
      (sections : List Outline.BracedSection)

namespace Outline

def tokens : Outline → List Token
| .flat items sections =>
    items.flatMap Item.tokens ++
      sections.flatMap FlatSection.tokens
| .braced statements sections =>
    statements.flatMap Statement.tokens ++
      sections.flatMap BracedSection.tokens

/- The names that are declared, in order, with their spaces. -/
def names : Outline → List String
| .flat items sections =>
    declared "" items ++ sections.flatMap FlatSection.names
| .braced _ sections => sections.flatMap BracedSection.names

end Outline

end SymbolAtlas
