import SymbolAtlas.Source.Grammar.Phrase

/-
  Expressions: operands, what follows them, and operators.

  How tightly operators bind makes no difference to tokens. An
  operand only has to tell what may follow it, since not
  everything can be assigned to.

  Key definitions:
    * `Grammar.expression`
    * `Grammar.suffix`, `Grammar.tail`
    * `Grammar.elements`
-/

------------------------------------------------------------
-- Operands
------------------------------------------------------------

namespace SymbolAtlas

namespace Grammar

/- Words for a class, from inside of it. -/
def scopeWords : List String :=
  ["parent", "self", "static"]

/- Words for values. -/
def valueWords : List String :=
  ["false", "null", "true"]

/- A whole expression. -/
def whole : Goal :=
  .go (.expression .whole)

/- Elements can be a pattern only where all else is possible. -/
def bracketReading (role : Role) : Reading :=
  ⟨true, role = .whole || role = .element⟩

/- Operands that members, elements and arguments may follow. -/
def chains (role : Role) : List (List Goal) :=
  [[.go .holder, .go (.suffix .holder role)],
    [.go .dynamicHolder, .go (.suffix .holder role)],
    [.go .path, .go (.suffix .value role)],
    inParens [whole] ++ [.go (.suffix .value role)],
    [.go .string, .go (.suffix .value role)],
    [sign "[",
      .go (.elements .brackets (bracketReading role) true role)],
    [key "array", sign "(",
      .go (.elements .arrayWord ⟨true, false⟩ true role)],
    [key "new", .go (.newTarget role)]] ++
  scopeWords.map (fun w =>
    [key w, sign "::", .go (.scopeMember role)]) ++
  scopeWords.map (fun w =>
    [keyName w, .go (.suffix .scope role)])

/- Other operands that every operator may have. -/
def simples (role : Role) : List (List Goal) :=
  [[.go .literal, .go (.tail .plain role)],
    [key "print", whole],
    [key "throw", whole],
    [.go (.closure role)],
    [.go .attributes, .go (.closure role)],
    [sign "++", .go (.expression .target), .go (.tail .plain role)],
    [sign "--", .go (.expression .target), .go (.tail .plain role)],
    [sign "`", .go (.quoted .backticks), .go (.tail .plain role)]]

/- Numbers and words for values. -/
def literal : List (List Goal) :=
  [[.read .integer .other], [.read .float .other]] ++
    valueWords.map fun w => [key w]

/- The types in front of an operand. -/
def castType : List (List Goal) :=
  Words.casts.map fun w => [key w]

/- Operands behind a sign, a type or the word for a copy. -/
def signed : List (List Goal) :=
  [key "clone", .go (.expression .primary)] ::
    (inParens [.go .castType] ++ [.go (.expression .unary)]) ::
    ["+", "-", "!", "~"].map fun s => [sign s, whole]

/- Operands that make no sense as operands of all operators. -/
def outermost (role : Role) : List (List Goal) :=
  [key "match" :: .go .condition ::
      inBraces [.go (.maybe .arms)] ++ [.go (.tail .outer role)],
    [key "yield", .go (.tail .bare role)],
    [key "yield", .go .yieldOperand],
    [.read .yieldFrom .other, whole],
    [key "require", whole],
    [key "require_once", whole],
    [key "list", sign "(",
      .go (.elements .listWord ⟨false, true⟩ true role)]]

/- Operands that also a type can stand in front of. -/
def included : List (List Goal) :=
  [[sign "@", whole], [key "include", whole],
    [key "include_once", whole]]

/- A type in parentheses, in front of a place. -/
def castPlace (role : Role) : List (List Goal) :=
  [inParens [.go .castType] ++
    match role with
    | .target => [.go (.expression .target)]
    | _ => [.go (.expression .target), .go (.tail .place role)]]

def expression (role : Role) : List (List Goal) :=
  match role with
  | .target => chains role ++ castPlace role
  | .primary => chains role ++ simples role ++ castPlace role
  | .unary => chains role ++ simples role ++ signed ++ included
  | _ =>
      chains role ++ simples role ++ signed ++ included ++
        outermost role

end Grammar

end SymbolAtlas

------------------------------------------------------------
-- Suffixes and Operators
------------------------------------------------------------

namespace SymbolAtlas

namespace Grammar

/- The operand ends here. -/
def operandEnd (shape : Shape) (role : Role) : List (List Goal) :=
  match role with
  | .target =>
      if shape = .place || shape = .holder then [[.note .place]]
      else []
  | _ => [[.go (.tail shape role)]]

/- Members, elements and arguments. -/
def links (shape : Shape) (role : Role) : List (List Goal) :=
  [[sign "->", .go .memberName, .go (.suffix .place role)],
    [sign "?->", .go .memberName, .go (.suffix .place role)],
    [sign "[", .go (.maybe (.expression .whole)), sign "]",
      .go (.suffix .place role)],
    [.go .arguments, .go (.suffix .place role)]] ++
  if shape = .scope then []
  else [[sign "::", .go (.scopeMember role)]]

/- Braces around the key of an element, behind a variable. -/
def braced (role : Role) : List (List Goal) :=
  [inBraces [whole] ++ [.go (.suffix .place role)]]

/- Signs that count up or down. -/
def steps (role : Role) : List (List Goal) :=
  if role = .target then []
  else
    [[sign "++", .go (.tail .plain role)],
      [sign "--", .go (.tail .plain role)]]

/- What belongs to an operand, behind it. -/
def suffix (shape : Shape) (role : Role) : List (List Goal) :=
  match shape with
  | .plain => operandEnd shape role
  | .outer => operandEnd shape role
  | .bare => operandEnd shape role
  | .pattern => operandEnd shape role
  | .listing => operandEnd shape role
  | .value => links shape role ++ operandEnd shape role
  | .scope => links shape role ++ operandEnd shape role
  | .list => links shape role ++ operandEnd shape role
  | .place =>
      links shape role ++ steps role ++ operandEnd shape role
  | .holder =>
      links shape role ++ braced role ++ steps role ++
        operandEnd shape role

/- A member of a class. -/
def scopeMember (role : Role) : List (List Goal) :=
  [[name, .go (.suffix .value role)],
    [.go .simpleHolder, .go (.suffix .place role)],
    inBraces [whole] ++ [.go (.suffix .value role)]]

/- Signs between operands. -/
def operators : List String :=
  ["<=>", "===", "!==", "==", "!=", "<>", "<=", ">=", "&&", "||",
    "??", "<<", ">>", "**", "|>", "+", "-", ".", "*", "/", "%",
    "^", "<", ">", "|", "&"]

/- Signs between operands that are also in front of some. -/
def operandSigns : List String :=
  ["+", "-", "&"]

/- Words between operands. -/
def operatorWords : List String :=
  ["and", "or", "xor"]

/- Signs that change a place by an operation. -/
def updates : List String :=
  ["**=", "<<=", ">>=", "??=", "+=", "-=", "*=", "/=", ".=", "%=",
    "&=", "|=", "^="]

/- Something can be assigned. -/
def isAssignable : Shape → Bool
| .place => true
| .holder => true
| .list => true
| .pattern => true
| .listing => true
| _ => false

/- A pattern is no expression of its own. -/
def isPattern : Shape → Bool
| .pattern => true
| .listing => true
| _ => false

def assignments (shape : Shape) : List (List Goal) :=
  if isAssignable shape then
    [[sign "=", whole], [sign "=", sign "&", whole]] ++
      if shape = .place || shape = .holder then
        updates.map fun s => [sign s, whole]
      else []
  else []

def operations (shape : Shape) (role : Role) :
    List (List Goal) :=
  if isPattern shape then []
  else
    (if shape = .bare then operators.removeAll operandSigns
      else operators).map (fun s => [sign s, whole]) ++
      operatorWords.map (fun w => [key w, whole]) ++
      [[sign "?", whole, sign ":", whole],
        [sign "?", sign ":", whole]] ++
      if shape = .outer || shape = .bare then []
      else
        [[key "instanceof", .go .classReference,
          .go (.tail .plain role)]]

/- The expression ends here. -/
def expressionEnd (shape : Shape) (role : Role) :
    List (List Goal) :=
  if role = .element then [[.note shape]]
  else if isPattern shape then []
  else [[.note .plain]]

/- What follows an operand that is complete. -/
def tail (shape : Shape) (role : Role) : List (List Goal) :=
  assignments shape ++ operations shape role ++
    expressionEnd shape role

end Grammar

end SymbolAtlas

------------------------------------------------------------
-- Names of Variables and Members
------------------------------------------------------------

namespace SymbolAtlas

namespace Grammar

/- A dollar sign and a name are one. -/
def holder : List (List Goal) :=
  [[.join .other, sign "$", name, .joined]]

/- A dollar sign and what computes the name behind it. -/
def dynamicHolder : List (List Goal) :=
  [[sign "$", .go .simpleHolder],
    sign "$" :: inBraces [whole]]

def simpleHolder : List (List Goal) :=
  [[.go .holder], [.go .dynamicHolder]]

/- The name of a member, or what computes it. -/
def memberName : List (List Goal) :=
  [[name], [.go .simpleHolder], inBraces [whole]]

def condition : List (List Goal) :=
  [inParens [whole]]

/- A place behind an ampersand. -/
def reference : List (List Goal) :=
  [[sign "&", .go (.expression .target)]]

end Grammar

end SymbolAtlas

------------------------------------------------------------
-- New Objects
------------------------------------------------------------

namespace SymbolAtlas

namespace Grammar

/- What an object is made from: a class in place, or a name. -/
def newTarget (role : Role) : List (List Goal) :=
  [[.go .classReference, .go (.newRest role)],
    [.go (.maybe .attributes), .go (.many .newModifier),
      key "class", .go (.maybe .arguments), .go (.maybe .extended),
      .go (.maybe .implemented), .go (.classBody false),
      .go (.suffix .value role)]]

/- Only an object that is made with arguments has members. -/
def newRest (role : Role) : List (List Goal) :=
  [[.go .arguments, .go (.suffix .value role)],
    [.go (.suffix .plain role)]]

def newModifier : List (List Goal) :=
  Words.classModifiers.map fun w => [key w]

/- A class by name, or what computes it. -/
def classReference : List (List Goal) :=
  [[.go .path, .go (.many .classSuffix)],
    [.go .simpleHolder, .go (.many .classSuffix)],
    inParens [whole]] ++
  scopeWords.map (fun w =>
    [key w, sign "::", .go .memberName,
      .go (.many .classSuffix)]) ++
  scopeWords.map (fun w => [keyName w, .go (.many .classSuffix)])

/- What may follow the name of a class, arguments excepted. -/
def classSuffix : List (List Goal) :=
  [[sign "->", .go .memberName],
    [sign "?->", .go .memberName],
    [sign "::", .go .memberName],
    [sign "[", .go (.maybe (.expression .whole)), sign "]"]]

end Grammar

end SymbolAtlas

------------------------------------------------------------
-- Arguments and Arms
------------------------------------------------------------

namespace SymbolAtlas

namespace Grammar

def arguments : List (List Goal) :=
  [inParens [], inParens (commaList .argument)]

def argument : List (List Goal) :=
  [[.go (.maybe .argumentName), .go (.maybe .ampersand),
    .go .argumentValue]]

/- Words that can be the name of an argument all the same. -/
def argumentWords : List String :=
  ["array", "false", "fn", "function", "match", "namespace",
    "null", "parent", "self", "static", "throw", "true"]

def argumentName : List (List Goal) :=
  [name, sign ":"] ::
    argumentWords.map fun w => [keyName w, sign ":"]

/- An argument, several ones, or the room for them. -/
def argumentValue : List (List Goal) :=
  [[whole], [sign "...", whole], [sign "..."], [sign "?"]]

/- The arms of a choice by value. -/
def arms : List (List Goal) :=
  [commaList .arm]

def arm : List (List Goal) :=
  [[.go .armConditions, sign "=>", whole],
    [key "default", sign "=>", whole]]

def armConditions : List (List Goal) :=
  [commaList (.expression .whole)]

end Grammar

end SymbolAtlas

------------------------------------------------------------
-- Elements
------------------------------------------------------------

namespace SymbolAtlas

namespace Grammar

namespace Reading

/- Nothing is left of what the elements could be. -/
def isImpossible (r : Reading) : Bool :=
  !r.isArray && !r.isPattern

/- What elements can be, behind one of this shape. -/
def behind (r : Reading) (form : Enclosure) (shape : Shape) :
    Reading :=
  let isNested :=
    match form with
    | .listWord => shape = .listing
    | _ => shape = .pattern || shape = .list
  ⟨r.isArray && !Grammar.isPattern shape,
    r.isPattern && (shape = .place || shape = .holder || isNested)⟩

/- What elements are when they are complete. -/
def shape (r : Reading) : Enclosure → Shape
| .listWord => .listing
| .arrayWord => .value
| .brackets =>
    if r.isArray && r.isPattern then .list
    else if r.isArray then .value
    else .pattern

end Reading

/- The end of the elements. -/
def elementsEnd (form : Enclosure) (reading : Reading)
    (role : Role) : List (List Goal) :=
  if reading.isImpossible then []
  else
    [[sign (if form = .brackets then "]" else ")"),
      .go (.suffix (reading.shape form) role)]]

/-
  Elements that come next. Some may be left out of a pattern,
  and one comma may stand alone between brackets.
-/
def elements (form : Enclosure) (reading : Reading)
    (isFirst : Bool) (role : Role) : List (List Goal) :=
  elementsEnd form reading role ++
    (if isFirst && form = .brackets && reading.isArray then
      (elementsEnd form reading role).map (sign "," :: ·)
    else []) ++
    (if reading.isPattern then
      [[sign ",", .go (.elements form ⟨false, true⟩ false role)]]
    else []) ++
    [[.go .element, .go (.elementsRest form reading role)]]

/- What follows an element of this shape. -/
def elementsRest (form : Enclosure) (reading : Reading)
    (role : Role) (shape : Shape) : List (List Goal) :=
  let left := reading.behind form shape
  if left.isImpossible then []
  else
    elementsEnd form left role ++
      [[sign ",", .go (.elements form left false role)]]

def element : List (List Goal) :=
  [[.go (.expression .element), .go (.maybe .elementArrow)],
    [.go .reference],
    [sign "...", whole]]

/- The value behind a key. -/
def elementArrow (shape : Shape) : List (List Goal) :=
  if isPattern shape then []
  else [[sign "=>", .go .elementValue]]

def elementValue : List (List Goal) :=
  [[.go (.expression .element)], [.go .reference]]

/- What a generator gives. -/
def yieldOperand : List (List Goal) :=
  [[whole, .go .yieldEnd],
    [.go .reference],
    [sign "...", whole]]

/- An arrow belongs to the word that is nearest to it. -/
def yieldEnd : List (List Goal) :=
  [[sign "=>", whole],
    [sign "=>", .go .reference],
    [.bar [.sign "=>"]]]

end Grammar

end SymbolAtlas
