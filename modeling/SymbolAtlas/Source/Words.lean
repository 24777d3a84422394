/-
  The words of PHP that have a meaning of their own.

  A word is a keyword only where its meaning is possible, and a
  name everywhere else. Words are compared in lower case unless
  said otherwise.

  Key definitions:
    * `Words.reserved`, words that name no declaration
    * `Words.lowerTypes`, `Words.types`
    * `Words.casts`, `Words.directives`
-/

namespace SymbolAtlas

namespace Words

/- Words with a meaning that no declaration can have as name. -/
def reserved : List String :=
  ["abstract", "and", "as", "bool", "break", "callable",
    "case", "catch", "class", "clone", "const", "continue",
    "declare", "default", "do", "echo", "else", "elseif",
    "enddeclare", "endfor", "endforeach", "endif", "endswitch",
    "endwhile", "extends", "false", "final", "finally",
    "float", "fn", "for", "foreach", "function", "global", "goto",
    "if", "implements", "include", "include_once", "instanceof",
    "insteadof", "int", "interface", "iterable", "match", "mixed",
    "namespace", "never", "new", "null", "object", "or",
    "print", "private", "protected", "public", "readonly",
    "require", "require_once", "return", "static",
    "string", "switch", "throw", "trait", "true", "try",
    "use", "var", "void", "while", "xor", "yield"]

/- Types that are written in lower case. -/
def lowerTypes : List String :=
  ["array", "bool", "float", "int", "null", "object", "string"]

/- Types that may be written in any case. -/
def types : List String :=
  ["callable", "false", "iterable", "mixed", "true", "void"]

/- Types that an expression can be turned into. -/
def casts : List String :=
  ["array", "binary", "bool", "boolean", "double", "float",
    "int", "integer", "object", "real", "string", "unset"]

/- Settings that `declare` knows, in lower case only. -/
def directives : List String :=
  ["encoding", "strict_types", "ticks"]

/- Who may use a member. -/
def access : List String :=
  ["private", "protected", "public"]

/- What else may stand in front of a member. -/
def modifiers : List String :=
  ["abstract", "final", "readonly", "static", "var"]

/- What may stand in front of a class. -/
def classModifiers : List String :=
  ["abstract", "final", "readonly"]

end Words

end SymbolAtlas
