import SymbolAtlas.Source.Grammar.Phrase

/-
  Names, types and attributes.

  Each definition lists what a phrase can stand for.

  Key definitions:
    * `Grammar.path`
    * `Grammar.type`
    * `Grammar.attributes`
-/

namespace SymbolAtlas

namespace Grammar

/- Goals that are read as one name. -/
def asName (inner : List Goal) : List Goal :=
  .join .identifier :: (inner ++ [.joined])

/-
  Names joined by backslashes, from here, from the root, or
  from the current namespace.
-/
def path : List (List Goal) :=
  [asName [name, .go (.many .pathStep)],
    asName [sign "\\", name, .go (.many .pathStep)],
    [key "namespace", sign "\\", .go .relativeRest]]

def pathStep : List (List Goal) :=
  [[sign "\\", name]]

/- The last name stands apart from those on the way. -/
def relativeRest : List (List Goal) :=
  [[name],
    asName [name, .go (.many .pathStep)] ++ [sign "\\", name]]

/- A type by its word or its name. -/
def typeName : List (List Goal) :=
  Words.lowerTypes.map (fun w => [.read (.exact w) .other]) ++
    Words.types.map (fun w => [key w]) ++ [[.go .path]]

/- A type, possibly one that allows for nothing. -/
def typeAtom : List (List Goal) :=
  [[.go .typeName], [sign "?", .go .typeName]]

/- Types that all have to fit. -/
def allTypes : List Goal :=
  [.go .typeAtom, .go (.many .andType)]

def andType : List (List Goal) :=
  [[sign "&", .go .typeAtom]]

/- One of the types of which one has to fit. -/
def typeChoice : List (List Goal) :=
  [[.go .typeAtom], inParens allTypes]

def orType : List (List Goal) :=
  [[sign "|", .go .typeChoice]]

def type : List (List Goal) :=
  [[.go .typeChoice, .go (.many .orType)], allTypes]

/- The type of a result, or the word for none at all. -/
def returnType : List (List Goal) :=
  [[sign ":", .go .type], [sign ":", key "never"]]

/- Groups of attributes. -/
def attributes : List (List Goal) :=
  [sign "#[" :: commaList .oneAttribute ++
    [sign "]", .go (.maybe .attributes)]]

def oneAttribute : List (List Goal) :=
  [[.go .path, .go (.maybe .arguments)]]

end Grammar

end SymbolAtlas
