import SymbolAtlas.Source.Terminal
import SymbolAtlas.Source.Token

/-
  Phrases and goals: what a source text has to go on with.

  A phrase is a part of the grammar that stands for one of some
  lists of goals. All other goals read a terminal, or take note
  of something.

  Key definitions:
    * `Shape`, `Role`
    * `Phrase`, `Goal`
-/

------------------------------------------------------------
-- Shapes and Roles
------------------------------------------------------------

namespace SymbolAtlas

namespace Grammar

/- What may follow an operand. -/
inductive Shape where
  /- Only an operator between operands. -/
  | plain
  /- The same, but no question for its class. -/
  | outer
  /- The same, but no sign that an operand could begin with. -/
  | bare
  /- Also a member, an element or arguments. -/
  | value
  /- A word for a class, whose members are named otherwise. -/
  | scope
  /- A value that can be assigned to, too. -/
  | place
  /- A place that is a variable and nothing more. -/
  | holder
  /- An array that may also be a pattern for other arrays. -/
  | list
  /- A pattern between brackets. -/
  | pattern
  /- A pattern behind the word for it. -/
  | listing
deriving DecidableEq, Repr

/- What an expression is for. -/
inductive Role where
  | whole
  /- An element of an array, or of a pattern. -/
  | element
  /- What a sign or a type in parentheses applies to. -/
  | unary
  /- What a copy is made of. -/
  | primary
  /- A place, without any operator behind it. -/
  | target
deriving DecidableEq, Repr

/- How the elements of an array are enclosed. -/
inductive Enclosure where
  | brackets
  | arrayWord
  | listWord
deriving DecidableEq, Repr

/- What elements can still turn out to be. -/
structure Reading where
  isArray : Bool
  isPattern : Bool
deriving DecidableEq, Repr

end Grammar

end SymbolAtlas

------------------------------------------------------------
-- Phrases
------------------------------------------------------------

namespace SymbolAtlas

namespace Grammar

/- The parts of the grammar. -/
inductive Phrase where
  -- Repetition
  | maybe (one : Phrase)
  | many (one : Phrase)
  | list (one : Phrase)
  | more (one : Phrase)
  | comma
  | ampersand
  | semicolon
  -- Names, types and attributes
  | identifier
  | path
  | pathStep
  | relativeRest
  | typeName
  | typeAtom
  | andType
  | typeChoice
  | orType
  | type
  | returnType
  | attributes
  | oneAttribute
  -- Expressions
  | expression (role : Role)
  | suffix (shape : Shape) (role : Role)
  | tail (shape : Shape) (role : Role)
  | holder
  | simpleHolder
  | dynamicHolder
  | scopeMember (role : Role)
  | memberName
  | castType
  | literal
  | condition
  | newTarget (role : Role)
  | newRest (role : Role)
  | newModifier
  | classReference
  | classSuffix
  | arguments
  | argument
  | argumentName
  | argumentValue
  | elements (form : Enclosure) (reading : Reading) (isFirst : Bool)
      (role : Role)
  | elementsRest (form : Enclosure) (reading : Reading)
      (role : Role)
  | element
  | elementValue
  | elementArrow
  | reference
  | yieldOperand
  | yieldEnd
  | arms
  | arm
  | armConditions
  -- Strings
  | string
  | quoted (host : Host)
  | stringPart (host : Host)
  | holderTail (host : Host)
  | subscript
  | labelled
  | labelledText
  | rawText
  -- Functions
  | closure (role : Role)
  | closureUse
  | captured
  | parameters
  | parameter
  | parameterForm
  | parameterWord
  | defaultValue
  | hooks
  | hooksOrEnd
  | hook
  | finalWord
  | hookBody
  | body
  -- Declarations
  | modifier
  | classHead
  | extended
  | implemented
  | enumType
  | classBody (ofEnum : Bool)
  | member (ofEnum : Bool)
  | memberBody (ofEnum : Bool)
  | modified
  | accessScope
  | constant
  | property
  | traitRules
  | traitRule
  | ruleName
  | ruleAlias
  -- Statements
  | statement
  | block
  | attributed
  | ifBody
  | elseifBranch
  | elseBranch
  | colonElseif
  | colonElse
  | loopBody (lastWord : String)
  | colonBody (lastWord : String)
  | switchBody
  | oneCase
  | caseMark
  | handler
  | catchType
  | directive
  | declareBody
  | exitValue
  | foreachTarget
  | foreachArrow
  | foreachValue
  | spaceName
  | useKind
  | useClause
  | groupClause
  | anotherName
  | root
deriving DecidableEq, Repr

/- What has to come next. -/
inductive Goal where
  /- One of the lists of goals of a phrase. -/
  | go (phrase : Phrase)
  /- A terminal, as a token of some kind. -/
  | read (terminal : Terminal) (kind : TokenKind)
  /- What is read from here on is one token of some kind. -/
  | join (kind : TokenKind)
  | joined
  /- The shape of the expression that has ended. -/
  | note (shape : Shape)
  /- Something else than these terminals has to follow. -/
  | bar (terminals : List Terminal)
deriving DecidableEq, Repr

end Grammar

end SymbolAtlas

------------------------------------------------------------
-- Terminals as Goals
------------------------------------------------------------

namespace SymbolAtlas

namespace Grammar

/- The token kind of a sign. -/
def signKind (text : String) : TokenKind :=
  if text = "\x7b" then .braceOpen
  else if text = "\x7d" then .braceClose
  else .other

/- The token kind of a word with its own meaning. -/
def keyKind (word : String) : TokenKind :=
  if ["class", "enum", "interface", "trait"].contains word then
    .declarationWord
  else if word = "namespace" then .spaceWord
  else .other

def sign (text : String) : Goal :=
  .read (.sign text) (signKind text)

/- A word with its own meaning. -/
def key (word : String) : Goal :=
  .read (.word word) (keyKind word)

/- A word with its own meaning, as a name. -/
def keyName (word : String) : Goal :=
  .read (.word word) .identifier

def name : Goal :=
  .read .name .identifier

def inParens (inner : List Goal) : List Goal :=
  sign "(" :: (inner ++ [sign ")"])

def inBraces (inner : List Goal) : List Goal :=
  sign "\x7b" :: (inner ++ [sign "\x7d"])

/- Parts between commas, possibly with a comma more. -/
def commaList (one : Phrase) : List Goal :=
  [.go (.list one), .go (.maybe .comma)]

end Grammar

end SymbolAtlas
