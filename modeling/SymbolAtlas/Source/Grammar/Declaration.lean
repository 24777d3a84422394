import SymbolAtlas.Source.Grammar.Phrase

/-
  Declarations of classes, interfaces, traits and enums.

  Key definitions:
    * `Grammar.classHead`
    * `Grammar.member`
    * `Grammar.traitRule`
-/

------------------------------------------------------------
-- Heads
------------------------------------------------------------

namespace SymbolAtlas

namespace Grammar

/- The name of a declaration. -/
def declared : Goal :=
  .read .declared .identifier

def extended : List (List Goal) :=
  [[key "extends", .go (.list .path)]]

def implemented : List (List Goal) :=
  [[key "implements", .go (.list .path)]]

/- The type of the values of an enum. -/
def enumType : List (List Goal) :=
  [[sign ":", .go .type]]

/- Words that say more about a class or a member. -/
def modifier : List (List Goal) :=
  Words.modifiers.map (fun w => [key w]) ++
    Words.access.map fun w => [key w, .go (.maybe .accessScope)]

/- A class, possibly behind words that say more about it. -/
def classHead : List (List Goal) :=
  [[.go .modifier, .go .classHead],
    [key "class", declared, .go (.maybe .extended),
      .go (.maybe .implemented), .go (.classBody false)]]

/- Declarations of other kinds. -/
def otherHeads : List (List Goal) :=
  [[key "interface", declared, .go (.maybe .extended),
      .go (.classBody false)],
    [key "trait", declared, .go (.classBody false)],
    [key "enum", declared, .go (.maybe .enumType),
      .go (.maybe .implemented), .go (.classBody true)]]

end Grammar

end SymbolAtlas

------------------------------------------------------------
-- Members
------------------------------------------------------------

namespace SymbolAtlas

namespace Grammar

def classBody (ofEnum : Bool) : List (List Goal) :=
  [inBraces [.go (.many (.member ofEnum))]]

def member (ofEnum : Bool) : List (List Goal) :=
  [[key "use", .go (.list .path), .go .traitRules],
    [.go (.maybe .attributes), .go (.memberBody ofEnum)]]

/- Constants that share a type. -/
def constants : List (List Goal) :=
  [[key "const", .go (.maybe .type), .go (.list .constant),
    .go .semicolon]]

def constant : List (List Goal) :=
  [[name, sign "=", .go (.expression .whole)]]

def method : List (List Goal) :=
  [[key "function", .go (.maybe .ampersand), name, .go .parameters,
    .go (.maybe .returnType), .go .body]]

/- A member, possibly behind words that say more about it. -/
def memberBody (ofEnum : Bool) : List (List Goal) :=
  method ++ constants ++ [[.go .modifier, .go .modified]] ++
    if ofEnum then
      [[key "case", name, .go (.maybe .defaultValue),
        .go .semicolon]]
    else []

/- A member behind words that say more about it. -/
def modified : List (List Goal) :=
  method ++ constants ++
    [[.go .modifier, .go .modified],
      [.go (.maybe .type), .go (.list .property),
        .go .hooksOrEnd]]

def property : List (List Goal) :=
  [[.go .holder, .go (.maybe .defaultValue)]]

end Grammar

end SymbolAtlas

------------------------------------------------------------
-- Rules for Traits
------------------------------------------------------------

namespace SymbolAtlas

namespace Grammar

def traitRules : List (List Goal) :=
  [inBraces [.go (.many .traitRule)], [.go .semicolon]]

/- Which trait wins, or another name for a member. -/
def traitRule : List (List Goal) :=
  [[.go .ruleName, key "insteadof", .go (.list .path),
      .go .semicolon],
    [.go .ruleName, key "as", .go .ruleAlias, .go .semicolon]]

def ruleName : List (List Goal) :=
  [[.go .path], [.go .path, sign "::", name]]

def ruleAlias : List (List Goal) :=
  [name] ::
    Words.access.map fun w => [key w, .go (.maybe .identifier)]

end Grammar

end SymbolAtlas
