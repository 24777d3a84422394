import SymbolAtlas.Data.Datum
import SymbolAtlas.Settings.Basic
import SymbolAtlas.Text.Upper

/-
  Layers: settings from one place.

  A layer says some settings and leaves others open. A value
  that is no good is an error even if another layer would have
  the last word.

  Key definitions:
    * `Settings.Layer`, `Settings.Layer.onto`
    * `Settings.Layer.ofTable`, `Settings.Layer.ofVariables`
-/

------------------------------------------------------------
-- Layers
------------------------------------------------------------

namespace SymbolAtlas

namespace Settings

/- What one place says about the settings. -/
structure Layer where
  roots : Option (List String) := none
  files : Option (List String) := none
  accept : Option (List String) := none
  ignore : Option (List String) := none
  exclude : Option (List String) := none
  cacheDir : Option String := none
  autoRebuild : Option Bool := none
  reportParseErrors : Option Bool := none
  ignoreUnreadable : Option Bool := none
  logLevel : Option String := none
deriving DecidableEq, Repr

/- The settings where a layer has the last word. -/
def Layer.onto (l : Layer) (s : Settings) : Settings where
  projectDir := s.projectDir
  roots := l.roots.getD s.roots
  files := l.files.getD s.files
  accept := l.accept.getD s.accept
  ignore := l.ignore.getD s.ignore
  exclude := l.exclude.getD s.exclude
  cacheDir := l.cacheDir.or s.cacheDir
  autoRebuild := l.autoRebuild.getD s.autoRebuild
  reportParseErrors :=
    l.reportParseErrors.getD s.reportParseErrors
  ignoreUnreadable := l.ignoreUnreadable.getD s.ignoreUnreadable
  logLevel := l.logLevel.getD s.logLevel

end Settings

end SymbolAtlas

------------------------------------------------------------
-- Values
------------------------------------------------------------

namespace SymbolAtlas

namespace Settings

def textOf? : Datum → Option String
| .text s => some s
| _ => none

/- One text or a list of texts. -/
def textsOf (setting : String) (value : Datum) :
    Except Error (List String) :=
  match value with
  | .text s => .ok [s]
  | .list items =>
      match items.mapM textOf? with
      | some texts => .ok texts
      | none => .error (.notStrings setting)
  | _ => .error (.notStrings setting)

/- The words for yes and no. -/
def yesWords : List String :=
  ["true", "1", "yes", "on"]

def noWords : List String :=
  ["false", "0", "no", "off"]

/-
  A word for yes or no, in any case and among blanks. No letter
  outside ASCII becomes a letter of these words in small case.
-/
def wordOf? (text : String) : Option Bool :=
  let word := String.ofList
    ((Blank.trim text.toList).map Char.toLower)
  if yesWords.contains word then some true
  else if noWords.contains word then some false
  else none

/-
  What is told of a value that is no truth value. It has to be
  shown for that.
-/
def refusal (setting : String) (room : Nat) (value : Datum) :
    Except Error Bool :=
  (Datum.showing room value value.shown).bind fun shown =>
    .error (.notBoolean setting shown)

/- A truth value, or a word for one. -/
def boolOf (setting : String) (room : Nat) (value : Datum) :
    Except Error Bool :=
  match value with
  | .bool b => .ok b
  | .text s =>
      match wordOf? s with
      | some b => .ok b
      | none => refusal setting room value
  | _ => refusal setting room value

/- The text of a value. -/
def textOf (room : Nat) (value : Datum) : Except Error String :=
  Datum.showing room value value.asText

/- A text in large letters. -/
def levelOf (room : Nat) (value : Datum) : Except Error String :=
  (textOf room value).map Upper.ofText

/- The real path that a text stands for. -/
def directoryOf (s : Settings) (d : Disk) (room : Nat)
    (value : Datum) : Except Error String :=
  (textOf room value).bind (s.resolvePath d)

/- The value of a setting, if it is there. -/
def valueOf
    {α : Type}
    (table : Datum)
    (setting : String)
    (read : Datum → Except Error α) : Except Error (Option α) :=
  match table.field? setting with
  | some value => (read value).map some
  | none => .ok none

def textsIn (table : Datum) (setting : String) :
    Except Error (Option (List String)) :=
  valueOf table setting (textsOf setting)

def boolIn (room : Nat) (table : Datum) (setting : String) :
    Except Error (Option Bool) :=
  valueOf table setting (boolOf setting room)

end Settings

end SymbolAtlas

------------------------------------------------------------
-- Places
------------------------------------------------------------

namespace SymbolAtlas

namespace Settings

/- What a table says. Its values are read in this order. -/
def Layer.ofTable
    (s : Settings)
    (d : Disk)
    (room : Nat)
    (table : Datum) : Except Error Layer := do
  return {
    roots := ← textsIn table "roots"
    files := ← textsIn table "files"
    accept := ← textsIn table "accept"
    ignore := ← textsIn table "ignore"
    exclude := ← textsIn table "exclude"
    cacheDir := ← valueOf table "cache_dir" (s.directoryOf d room)
    autoRebuild := ← boolIn room table "auto_rebuild"
    reportParseErrors := ← boolIn room table "report_parse_errors"
    ignoreUnreadable :=
      ← boolIn room table "ignore_unreadable_dirs"
    logLevel := ← valueOf table "log_level" (levelOf room) }

/- The name of a variable of the environment. -/
def variableName (name : String) : String :=
  "CLASSMAP_" ++ name

/- The variables that are set, as a table. -/
def variableTable (env : List (String × String)) : Datum :=
  .record ((env.filter (!·.2.isEmpty)).map
    fun (name, value) => (name, .text value))

/- Roots with colons between them. -/
def rootsOf (value : Datum) : Except Error (List String) :=
  .ok ((value.asText.splitOn ":").filter (!·.isEmpty))

/- What the environment says. Empty variables say nothing. -/
def Layer.ofVariables
    (s : Settings)
    (d : Disk)
    (room : Nat)
    (env : List (String × String)) :
    Except Error Layer := do
  let table := variableTable env
  return {
    roots := ← valueOf table (variableName "ROOTS") rootsOf
    cacheDir := ← valueOf table (variableName "CACHE_DIR")
      (s.directoryOf d room)
    autoRebuild :=
      ← boolIn room table (variableName "AUTO_REBUILD")
    reportParseErrors :=
      ← boolIn room table (variableName "REPORT_PARSE_ERRORS")
    logLevel := ← valueOf table (variableName "LOG_LEVEL")
      (levelOf room) }

end Settings

end SymbolAtlas
