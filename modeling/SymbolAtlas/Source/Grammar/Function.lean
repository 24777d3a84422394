import SymbolAtlas.Source.Grammar.Phrase

/-
  Functions: parameters, closures and property hooks.

  Key definitions:
    * `Grammar.closure`
    * `Grammar.parameter`
    * `Grammar.hook`
-/

------------------------------------------------------------
-- Parameters
------------------------------------------------------------

namespace SymbolAtlas

namespace Grammar

/- Parameters. One comma may stand alone. -/
def parameters : List (List Goal) :=
  [inParens [.go (.maybe .comma)], inParens (commaList .parameter)]

def parameter : List (List Goal) :=
  [[.go (.maybe .attributes), .go .parameterForm]]

def plainParameter : List (List Goal) :=
  [[.go (.maybe .type), .go (.maybe .ampersand),
      .go .holder, .go (.maybe .defaultValue)],
    [.go (.maybe .type), .go (.maybe .ampersand),
      sign "...", .go .holder]]

/- A parameter that becomes a member. -/
def memberParameter : List (List Goal) :=
  [[.go .parameterWord, .go (.many .parameterWord),
    .go (.maybe .type), .go (.maybe .ampersand),
    .go .holder, .go (.maybe .defaultValue),
    .go (.maybe .hooks)]]

def parameterForm : List (List Goal) :=
  plainParameter ++ memberParameter

def parameterWord : List (List Goal) :=
  [key "readonly"] ::
    Words.access.map fun w => [key w, .go (.maybe .accessScope)]

def defaultValue : List (List Goal) :=
  [[sign "=", .go (.expression .whole)]]

/- Who may change a member, behind who may use it. -/
def accessScope : List (List Goal) :=
  [inParens [.read .name .other]]

end Grammar

end SymbolAtlas

------------------------------------------------------------
-- Closures
------------------------------------------------------------

namespace SymbolAtlas

namespace Grammar

/- A function without a name. -/
def closureForms (role : Role) : List (List Goal) :=
  [[key "fn", .go (.maybe .ampersand), .go .parameters,
      .go (.maybe .returnType), sign "=>",
      .go (.expression .whole)],
    [key "function", .go (.maybe .ampersand), .go .parameters,
      .go (.maybe .closureUse), .go (.maybe .returnType),
      .go .block, .go (.tail .plain role)]]

def closure (role : Role) : List (List Goal) :=
  closureForms role ++ (closureForms role).map (key "static" :: ·)

/- The variables that a closure takes with it. -/
def closureUse : List (List Goal) :=
  [key "use" :: inParens (commaList .captured)]

def captured : List (List Goal) :=
  [[.go .holder], [.go .reference]]

/- The body of a function, which may be missing. -/
def body : List (List Goal) :=
  [[.go .block], [.go .semicolon]]

end Grammar

end SymbolAtlas

------------------------------------------------------------
-- Hooks
------------------------------------------------------------

namespace SymbolAtlas

namespace Grammar

def hooks : List (List Goal) :=
  [inBraces [.go (.many .hook)]]

def hooksOrEnd : List (List Goal) :=
  [[.go .hooks], [.go .semicolon]]

/- What happens when a property is read or written. -/
def hook : List (List Goal) :=
  [[.go (.maybe .attributes), .go (.maybe .finalWord),
    .go (.maybe .ampersand), name, .go (.maybe .parameters),
    .go .hookBody]]

def finalWord : List (List Goal) :=
  [[key "final"]]

def hookBody : List (List Goal) :=
  [[sign "=>", .go (.expression .whole), .go .semicolon],
    [.go .block],
    [.go .semicolon]]

end Grammar

end SymbolAtlas
