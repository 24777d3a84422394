import SymbolAtlas.Console.Basic
import SymbolAtlas.Search.Query

/-
  Running commands.

  Key definitions:
    * `Console.settingsFor`
    * `Console.run`
    * `Console.Outcome`, `Console.execute`
-/

------------------------------------------------------------
-- Settings
------------------------------------------------------------

namespace SymbolAtlas

namespace Console

/- The variables of the environment. -/
abbrev Variables := List (String × String)

/- The directory where the cache of a project usually is. -/
def usualCache (s : Settings) : String :=
  (Route.ofText s.projectDir ++ Route.ofText ".classmap/cache").text

def rootsHint : String :=
  "Set 'roots' in .classmap/config.toml or the " ++
    "CLASSMAP_ROOTS environment variable."

/- The settings for a command, which need something to index. -/
def settingsFor (t : Target) (env : Variables) :
    Work Settings := do
  let d := (← get).desk.disk
  let project := t.project.getD (Disk.textOf d.cwd)
  let s ← expose (← onDesk (Settings.load project env))
  let s := if t.verbose then { s with logLevel := "DEBUG" } else s
  if s.roots.isEmpty && s.files.isEmpty then
    refuse "No roots configured." (some rootsHint)
  return { s with cacheDir := some (s.cacheDir.getD (usualCache s)) }

/- A path as it is shown below a directory. -/
def displayed (base path : String) : String :=
  match (Route.ofText base).below? (Route.ofText path) with
  | some rest => rest.text
  | none => path

end Console

end SymbolAtlas

------------------------------------------------------------
-- Index Commands
------------------------------------------------------------

namespace SymbolAtlas

namespace Console

/- The title of the program, with its version. -/
def programTitle : String := "classmap v0.1.0"

/- Discard the cache and scan everything. -/
def rebuild (t : Target) (env : Variables) : Work Unit := do
  let s ← settingsFor t env
  let (symbols, cache) ← report (← withLoader s do
    Loader.rebuild
    let symbols ← Loader.listing
    return (symbols, (← Loader.store).path))
  let files := (symbols.map Prod.snd).eraseDups
  printPanel {
    title := programTitle
    text := "Indexed " ++ toString symbols.length ++
      " symbols in " ++ toString files.length ++
      " files\nCache: " ++ cache }

/- Print the file that declares a symbol. -/
def resolve (t : Target) (symbol : String)
    (env : Variables) : Work Unit := do
  let s ← settingsFor t env
  let name := String.ofList (symbol.toList.dropWhile (· == '\\'))
  match ← report (← withLoader s (Loader.resolve name)) with
  | some path => printText path
  | none =>
      refuse ("Symbol '" ++ symbol ++ "' not found.")
        (some "Run 'classmap rebuild' after adding files.")

/- Show every symbol. -/
def list (t : Target) (env : Variables) : Work Unit := do
  let s ← settingsFor t env
  let symbols ← report (← withLoader s Loader.listing)
  if symbols.isEmpty then printText "No symbols indexed."
  else
    printTable {
      title := "Indexed symbols"
      header := ["Symbol", "File"]
      rows := symbols.map fun (symbol, path) =>
        [symbol, displayed s.projectDir path] }

def orDash (texts : List String) : String :=
  let text := ", ".intercalate texts
  if text.isEmpty then "-" else text

/- What the index holds, if it has been built. -/
def indexRows : Option Snapshot → List (List String)
| none => [["Index", "Not built"]]
| some known =>
    let files :=
      (known.symbols.entries.map (·.2.file)).eraseDups
    [["Index", toString known.symbols.size ++ " symbols, " ++
        toString files.length ++ " files"],
      ["Empty files", toString known.emptyFiles.size],
      ["Missing lookups", toString known.missing.size]]

/- Show the settings and the state of the cache. -/
def status (t : Target) (env : Variables) : Work Unit := do
  let s ← settingsFor t env
  let key ← expose (Key.ofSettings s (← get).desk.disk)
  let store : Store := {
    directory := s.cacheDir.getD ""
    key := key
    isDebug := s.isDebug }
  let known ← expose (← onDesk store.read)
  printText ""
  printTable {
    title := "classmap status"
    header := ["Property", "Value"]
    rows := [
      ["Project", s.projectDir],
      ["Roots", orDash s.roots],
      ["Standalone files", orDash s.files],
      ["Accept", ", ".intercalate s.accept],
      ["Ignore", ", ".intercalate s.ignore],
      ["Cache", store.path]] ++ indexRows known ++
      [["Auto rebuild", if s.autoRebuild then "On" else "Off"]] }
  printText ""

end Console

end SymbolAtlas

------------------------------------------------------------
-- Searching
------------------------------------------------------------

namespace SymbolAtlas

namespace Console

/- Complete a query by what was asked for. -/
def refine (h : Hunt) (query : Query) : Except Error Query := do
  let query ← query.fromDirs h.fromDirs
  let query ← query.inDirs h.inDirs
  let query ← query.exclude h.exclude
  let query := query.limitDepth (some h.maxDepth)
  let query := { query with childFirst := h.childFirst }
  return if h.sort then query.sortBy .name else query

/- List the files or directories that meet some masks. -/
def find (h : Hunt) : Work Unit := do
  let query ← expose
    (if h.dirs then Query.findDirectories h.masks
     else Query.findFiles h.masks)
  let query ← report (refine h query)
  let trace := query.run (← get).desk.disk
  trace.records.forM fun record => printText record.path
  match trace.failure with
  | some error => report (.error error)
  | none =>
      if trace.records.isEmpty then printText "No matches."

end Console

end SymbolAtlas

------------------------------------------------------------
-- Commands
------------------------------------------------------------

namespace SymbolAtlas

namespace Console

/- Run a command. -/
def run (env : Variables) : Command → Work Unit
| .rebuild t => rebuild t env
| .resolve t symbol => resolve t symbol env
| .list t => list t env
| .find h => find h
| .status t => status t env

/- How a command line ended: status, error and console. -/
structure Outcome where
  code : Nat
  error : Option Error := none
  console : Console

/- The status of a command line that makes no sense. -/
def usageStatus : Nat := 2

/- Run a command line on a disk. -/
def execute
    (d : Disk)
    (env : Variables)
    (arguments : List String) : Outcome :=
  let start : Console := ⟨⟨d, []⟩, []⟩
  match Command.ofArguments? arguments with
  | none => ⟨usageStatus, none, start⟩
  | some command =>
      match run env command start with
      | .ok _ console => ⟨0, none, console⟩
      | .error (.status code) console => ⟨code, none, console⟩
      | .error (.crash error) console => ⟨1, some error, console⟩

end Console

end SymbolAtlas
