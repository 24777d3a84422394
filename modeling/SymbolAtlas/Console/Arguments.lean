import SymbolAtlas.Console.WholeNumber

/-
  The words of a command line.

  Options and arguments may come in any order. A long option
  may carry its value behind an equals sign, a short one may
  have it attached, and short flags may be run together. Two
  dashes end the options.

  Key definitions:
    * `Console.OptionSpec`
    * `Console.Words`, `Console.readWords`
    * `Console.Command`, `Console.Command.ofArguments?`
-/

------------------------------------------------------------
-- Options
------------------------------------------------------------

namespace SymbolAtlas

namespace Console

/- An option: its long name, its letter, and if it has a value. -/
structure OptionSpec where
  name : String
  letter : Option Char := none
  hasValue : Bool := false
deriving DecidableEq, Repr

/- Options with their values, and arguments, both in order. -/
structure Words where
  options : List (String × String) := []
  arguments : List String := []
deriving DecidableEq, Repr

namespace Words

def addOption (w : Words) (name value : String) : Words :=
  { w with options := (name, value) :: w.options }

def addFlags (w : Words) (names : List String) : Words :=
  { w with options := names.map (·, "") ++ w.options }

def addArgument (w : Words) (argument : String) : Words :=
  { w with arguments := argument :: w.arguments }

/- The values that an option was given. -/
def valuesOf (w : Words) (name : String) : List String :=
  (w.options.filter (·.1 == name)).map Prod.snd

/- The last value counts. -/
def valueOf? (w : Words) (name : String) : Option String :=
  (w.valuesOf name).getLast?

def has (w : Words) (name : String) : Bool :=
  (w.valueOf? name).isSome

end Words

/- What a word that begins with a dash asks for. -/
inductive Request where
  /- Nothing more is needed. -/
  | complete (flags : List String) (option : Option (String × String))
  /- The next word is the value of the option. -/
  | awaiting (flags : List String) (name : String)
deriving DecidableEq, Repr

/- A long option, behind its two dashes. -/
def longOption? (specs : List OptionSpec) (body : List Char) :
    Option Request :=
  let name := String.ofList (body.takeWhile (· != '='))
  match specs.find? (·.name == name), body.dropWhile (· != '=') with
  | none, _ => none
  | some spec, [] =>
      if spec.hasValue then some (.awaiting [] name)
      else some (.complete [name] none)
  | some spec, _ :: value =>
      if spec.hasValue then
        some (.complete [] (some (name, String.ofList value)))
      else none

/- Short options, behind their dash. -/
def shortOptions? (specs : List OptionSpec) :
    (flags : List String) → List Char → Option Request
| flags, [] => some (.complete flags none)
| flags, c :: rest =>
    match specs.find? (·.letter == some c) with
    | none => none
    | some spec =>
        if !spec.hasValue then
          shortOptions? specs (flags ++ [spec.name]) rest
        else if rest.isEmpty then
          some (.awaiting flags spec.name)
        else
          some (.complete flags
            (some (spec.name, String.ofList rest)))

/- The request of a word, or nothing if it is an argument. -/
def request? (specs : List OptionSpec) (word : String) :
    Option (Option Request) :=
  match word.toList with
  | '-' :: '-' :: body => some (longOption? specs body)
  | '-' :: c :: body => some (shortOptions? specs [] (c :: body))
  | _ => none

/- Read all words. Nothing comes of words that make no sense. -/
def readWords (specs : List OptionSpec) :
    List String → Option Words
| [] => some {}
| word :: rest =>
    if word = "--" then some { arguments := rest }
    else
      match request? specs word with
      | none => (readWords specs rest).map (·.addArgument word)
      | some none => none
      | some (some (.complete flags option)) =>
          (readWords specs rest).map fun words =>
            match option with
            | some (name, value) =>
                (words.addOption name value).addFlags flags
            | none => words.addFlags flags
      | some (some (.awaiting flags name)) =>
          match rest with
          | [] => none
          | value :: more =>
              (readWords specs more).map fun words =>
                (words.addOption name value).addFlags flags

end Console

end SymbolAtlas

------------------------------------------------------------
-- Commands
------------------------------------------------------------

namespace SymbolAtlas

namespace Console

/- The project that a command is about. -/
structure Target where
  project : Option String := none
  verbose : Bool := false
deriving DecidableEq, Repr

/- What to find, and where and how to look for it. -/
structure Hunt where
  masks : List String
  fromDirs : List String := []
  inDirs : List String := []
  exclude : List String := []
  dirs : Bool := false
  maxDepth : Int := -1
  childFirst : Bool := false
  sort : Bool := false
deriving DecidableEq, Repr

inductive Command where
  | rebuild (target : Target)
  | resolve (target : Target) (symbol : String)
  | list (target : Target)
  | find (hunt : Hunt)
  | status (target : Target)
deriving DecidableEq, Repr

namespace Command

/- The options of commands that are about a project. -/
def targetSpecs : List OptionSpec :=
  [⟨"project", some 'p', true⟩, ⟨"verbose", some 'v', false⟩]

/- The options of a search. -/
def huntSpecs : List OptionSpec :=
  [⟨"from", none, true⟩, ⟨"in", none, true⟩,
    ⟨"exclude", some 'x', true⟩, ⟨"dirs", none, false⟩,
    ⟨"max-depth", none, true⟩, ⟨"child-first", none, false⟩,
    ⟨"sort", none, false⟩]

def targetOf (w : Words) : Target :=
  ⟨w.valueOf? "project", w.has "verbose"⟩

/- A number of levels, where minus one is no limit. -/
def depthOf? (w : Words) : Option Int :=
  match w.valueOf? "max-depth" with
  | none => some (-1)
  | some text => WholeNumber.ofText? text

/- A search needs at least one mask. -/
def huntOf? (w : Words) : Option Hunt :=
  if w.arguments.isEmpty then none
  else
    (depthOf? w).map fun depth =>
      { masks := w.arguments
        fromDirs := w.valuesOf "from"
        inDirs := w.valuesOf "in"
        exclude := w.valuesOf "exclude"
        dirs := w.has "dirs"
        maxDepth := depth
        childFirst := w.has "child-first"
        sort := w.has "sort" }

/- A command about a project and nothing else. -/
def plain? (make : Target → Command) (words : List String) :
    Option Command :=
  (readWords targetSpecs words).bind fun w =>
    if w.arguments.isEmpty then some (make (targetOf w)) else none

/- A command about one symbol of a project. -/
def symbol? (words : List String) : Option Command :=
  (readWords targetSpecs words).bind fun w =>
    match w.arguments with
    | [symbol] => some (.resolve (targetOf w) symbol)
    | _ => none

/- The command with a name and the words behind it. -/
def named? (name : String) (words : List String) :
    Option Command :=
  match name with
  | "rebuild" => plain? .rebuild words
  | "resolve" => symbol? words
  | "list" => plain? .list words
  | "find" =>
      ((readWords huntSpecs words).bind huntOf?).map .find
  | "status" => plain? .status words
  | _ => none

/- The command of a command line, if it makes sense. -/
def ofArguments? : List String → Option Command
| "--" :: name :: words => named? name words
| name :: words => named? name words
| [] => none

end Command

end Console

end SymbolAtlas
