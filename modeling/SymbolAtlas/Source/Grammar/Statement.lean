import SymbolAtlas.Source.Grammar.Declaration

/-
  Statements.

  Key definitions:
    * `Grammar.statement`
-/

------------------------------------------------------------
-- Choices and Loops
------------------------------------------------------------

namespace SymbolAtlas

namespace Grammar

/- All statements up to something else. -/
def statements : Goal :=
  .go (.many .statement)

def block : List (List Goal) :=
  [inBraces [statements]]

/- Leaving the code ends a statement, too. -/
def semicolon : List (List Goal) :=
  [[sign ";"], [.read .leave .other]]

/- Statements between a colon and a word. -/
def colonForm (lastWord : String) : List Goal :=
  [sign ":", statements, key lastWord, .go .semicolon]

def ifBody : List (List Goal) :=
  [[.go .statement, .go (.many .elseifBranch),
      .go (.maybe .elseBranch)],
    [sign ":", statements, .go (.many .colonElseif),
      .go (.maybe .colonElse), key "endif", .go .semicolon]]

def elseifBranch : List (List Goal) :=
  [[key "elseif", .go .condition, .go .statement]]

def elseBranch : List (List Goal) :=
  [[key "else", .go .statement]]

def colonElseif : List (List Goal) :=
  [[key "elseif", .go .condition, sign ":", statements]]

def colonElse : List (List Goal) :=
  [[key "else", sign ":", statements]]

/- What is done again and again, or nothing at all. -/
def loopBody (lastWord : String) : List (List Goal) :=
  [[.go .statement], [.go .semicolon], colonForm lastWord]

def colonBody (lastWord : String) : List (List Goal) :=
  [[.go .statement], colonForm lastWord]

def switchBody : List (List Goal) :=
  [inBraces [.go (.many .oneCase)],
    [sign ":", .go (.many .oneCase), key "endswitch",
      .go .semicolon]]

def oneCase : List (List Goal) :=
  [[key "case", .go (.expression .whole), .go .caseMark,
      statements],
    [key "default", .go .caseMark, statements]]

/- The sign between a case and its statements. -/
def caseMark : List (List Goal) :=
  [[sign ":"], [.go .semicolon]]

def foreachTarget : List (List Goal) :=
  [[.go (.expression .element), .go (.maybe .foreachArrow)],
    [.go .reference]]

def foreachArrow (shape : Shape) : List (List Goal) :=
  if shape = .pattern || shape = .listing then []
  else [[sign "=>", .go .foreachValue]]

def foreachValue : List (List Goal) :=
  [[.go (.expression .element)], [.go .reference]]

end Grammar

end SymbolAtlas

------------------------------------------------------------
-- Other Statements
------------------------------------------------------------

namespace SymbolAtlas

namespace Grammar

/- What happens when something was thrown, or in any case. -/
def handler : List (List Goal) :=
  [key "catch" ::
      inParens [.go .path, .go (.many .catchType),
        .go (.maybe .holder)] ++ [.go .block],
    [key "finally", .go .block]]

def catchType : List (List Goal) :=
  [[sign "|", .go .path]]

/- A setting of the language itself. -/
def directive : List (List Goal) :=
  Words.directives.flatMap fun w =>
    [[.read (.exact w) .other, sign "=", .go .literal],
      [.read (.exact w) .other, sign "=", .go .string]]

def declareBody : List (List Goal) :=
  [[.go .statement], [.go .semicolon], colonForm "enddeclare"]

def exitValue : List (List Goal) :=
  [inParens [.go (.maybe (.expression .whole))]]

/- The name of a namespace. -/
def spaceName : List (List Goal) :=
  [[.join .identifier, name, .go (.many .pathStep), .joined]]

/- The kind of names that are made known. -/
def useKind : List (List Goal) :=
  [[key "const"], [key "function"]]

def useClause : List (List Goal) :=
  [[.go .path, .go (.maybe .anotherName)]]

def groupClause : List (List Goal) :=
  [[.go (.maybe .useKind), .go .path, .go (.maybe .anotherName)]]

def anotherName : List (List Goal) :=
  [[key "as", name]]

def root : List (List Goal) :=
  [[sign "\\"]]

/- Names from elsewhere that are made known. -/
def uses : List (List Goal) :=
  [[key "use", .go (.maybe .useKind), .go (.list .useClause),
      .go .semicolon],
    [key "use", .go (.maybe .useKind), .go (.maybe .root),
      .go .spaceName, sign "\\"] ++
      inBraces (commaList .groupClause) ++ [.go .semicolon]]

def namespaces : List (List Goal) :=
  [[key "namespace", .go .spaceName, .go .semicolon],
    [key "namespace", .go (.maybe .spaceName), .go .block]]

end Grammar

end SymbolAtlas

------------------------------------------------------------
-- Statements
------------------------------------------------------------

namespace SymbolAtlas

namespace Grammar

/- Statements that are told by their first word. -/
def wordStatements : List (List Goal) :=
  [[key "if", .go .condition, .go .ifBody],
    [key "switch", .go .condition, .go .switchBody],
    [key "while", .go .condition, .go (.colonBody "endwhile")],
    [key "do", .go .statement, key "while", .go .condition,
      .go .semicolon],
    key "for" ::
      inParens
        [.go (.maybe (.list (.expression .whole))), sign ";",
          .go (.maybe (.list (.expression .whole))), sign ";",
          .go (.maybe (.list (.expression .whole)))] ++
        [.go (.loopBody "endfor")],
    key "foreach" ::
      inParens [.go (.expression .whole), key "as",
        .go .foreachTarget] ++
        [.go (.loopBody "endforeach")],
    [key "goto", name, .go .semicolon],
    [key "try", .go .block, .go .handler, .go (.many .handler)],
    key "declare" :: inParens [.go (.list .directive)] ++
      [.go .declareBody],
    [key "echo", .go (.list (.expression .whole)), .go .semicolon],
    [key "exit", .go (.maybe .exitValue), .go .semicolon],
    .read (.exact "unset") .other ::
      inParens (commaList (.expression .target)) ++
      [.go .semicolon],
    [key "global", .go (.list .simpleHolder), .go .semicolon],
    [key "static", .go (.list .property), .go .semicolon]] ++
  ["break", "continue", "return"].map fun w =>
    [key w, .go (.maybe (.expression .whole)), .go .semicolon]

/- A function with a name. -/
def functions : List (List Goal) :=
  [[key "function", .go (.maybe .ampersand), name, .go .parameters,
    .go (.maybe .returnType), .go .block]]

/- What attributes can stand in front of. -/
def attributed : List (List Goal) :=
  [.go .classHead] :: otherHeads ++ functions ++ constants

def statement : List (List Goal) :=
  [[sign ";"],
    [.go .block],
    [name, sign ":"],
    [.go (.expression .whole), .go .semicolon],
    [.go .attributes, .go .attributed],
    [.go .classHead]] ++
  otherHeads ++ functions ++ constants ++ namespaces ++ uses ++
    wordStatements

end Grammar

end SymbolAtlas
