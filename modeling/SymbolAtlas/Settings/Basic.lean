import SymbolAtlas.Disk.Resolve

/-
  Settings: what to index and how.

  Key definitions:
    * `Settings`, `Settings.isDebug`
    * `Settings.resolvePath`
-/

namespace SymbolAtlas

/-
  Where the sources are and which files count as sources.

  `roots` are searched, `files` stand alone. `accept` are the
  masks of sources and `ignore` masks that exclude; `exclude`
  are paths that are never indexed.
-/
structure Settings where
  projectDir : String := "."
  roots : List String := []
  files : List String := []
  accept : List String := ["*.php"]
  ignore : List String := [".*", "*.old", "*.bak", "*.tmp", "temp"]
  exclude : List String := []
  cacheDir : Option String := none
  autoRebuild : Bool := true
  reportParseErrors : Bool := true
  ignoreUnreadable : Bool := true
  logLevel : String := "INFO"
deriving DecidableEq, Repr

namespace Settings

/- Everything is told. -/
def isDebug (s : Settings) : Bool :=
  s.logLevel == "DEBUG"

/- The real path of a path that the settings hold. -/
def resolvePath (s : Settings) (d : Disk) (path : String) :
    Except Error String := do
  let route ← d.expandHome (Route.ofText path)
  d.realPath (Route.ofText s.projectDir ++ route).text

end Settings

end SymbolAtlas
