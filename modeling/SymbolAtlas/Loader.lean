import SymbolAtlas.Index.Lookup
import SymbolAtlas.Store.Basic
import SymbolAtlas.Store.Key

/-
  Loaders: an index that is kept between runs.

  A loader takes its index from a store the first time it is
  asked, answers from it, and saves it in the end if look-ups
  changed it. A host calls it as one link of a chain.

  Key definitions:
    * `Loader`, `Loader.Work`, `Loader.start`
    * `Loader.resolve`, `Loader.rebuild`, `Loader.refresh`
    * `Loader.close`
    * `Loader.Hook`, `Loader.register`
-/

------------------------------------------------------------
-- Loaders
------------------------------------------------------------

namespace SymbolAtlas

/-
  The settings, whether scans are strict, the desk, the index
  and the files that were handed to the host.
-/
structure Loader where
  settings : Settings
  strict : Bool
  desk : Desk
  index : Index := {}
  loaded : List String := []

namespace Loader

/- Work with a loader, which may fail. -/
abbrev Work := EStateM Error Loader

/- A part of the work that only needs the desk. -/
def onDesk {α : Type} (w : Desk.Work α) : Work α := fun l =>
  match w l.desk with
  | .ok value desk => .ok value { l with desk := desk }
  | .error error desk => .error error { l with desk := desk }

/- The loader after its index has worked. -/
def withIndex (l : Loader) (i : Index) : Loader :=
  { l with
    index := { i with notices := [] }
    desk :=
      { l.desk with notices := l.desk.notices ++ i.notices } }

/- A part of the work that only needs the index. -/
def onIndex
    {α : Type}
    (w : Index.Context → Index.Work α) : Work α := fun l =>
  match w ⟨l.desk.disk, l.settings, l.strict⟩ l.index with
  | .ok value i => .ok value (l.withIndex i)
  | .error error i => .error error (l.withIndex i)

/- A new loader. Its cache directory is made if needed. -/
def start (settings : Settings) : Desk.Work Loader := do
  match settings.cacheDir with
  | some dir =>
      let _ ← Desk.ensureDirectory dir Desk.openMode
  | none => pure ()
  return {
    settings := settings
    strict := settings.reportParseErrors
    desk := ⟨(← get).disk, []⟩ }

end Loader

end SymbolAtlas

------------------------------------------------------------
-- The Cache
------------------------------------------------------------

namespace SymbolAtlas

namespace Loader

/- The store that the settings lead to. -/
def store : Work Store := do
  let l ← get
  match l.settings.cacheDir with
  | none => throw .noCacheDirectory
  | some dir =>
      match Key.ofSettings l.settings l.desk.disk with
      | .error error => throw error
      | .ok key =>
          return {
            directory := dir
            key := key
            isDebug := l.settings.isDebug }

/- Save what the index knows. -/
def save : Work Unit := do
  let s ← store
  onDesk (s.save (← get).index.known)

def markClean : Work Unit :=
  onIndex fun _ => Index.renew fun s => { s with dirty := false }

def markLoaded : Work Unit :=
  onIndex fun _ =>
    Index.renew fun s => { s with cacheLoaded := true }

/- Forget everything and scan all sources. -/
def build : Work Snapshot := do
  onIndex fun c => do
    Index.clear
    Index.rebuild c
  return (← get).index.known

/- Take the index from the store, the first time. -/
def loadCache : Work Unit := do
  if !(← get).index.session.cacheLoaded then
    let s ← store
    let snapshot ← s.load Others.absent onDesk build
    onIndex fun _ => Index.restore snapshot
    markLoaded

end Loader

end SymbolAtlas

------------------------------------------------------------
-- Operations
------------------------------------------------------------

namespace SymbolAtlas

namespace Loader

/- The file that declares a symbol. -/
def resolve (symbol : String) : Work (Option String) := do
  loadCache
  onIndex fun c => Index.lookup c symbol

/- The symbols by name, with their files. -/
def listing : Work (List (String × String)) := do
  loadCache
  return (← get).index.listing

/- Forget everything, scan all sources and save the result. -/
def rebuild : Work Unit := do
  markLoaded
  let _ ← build
  if (← get).settings.cacheDir.isSome then
    save
    markClean

/- Scan what has changed, at most once in a session. -/
def refresh : Work Unit := do
  loadCache
  if !(← get).index.session.refreshed then
    onIndex Index.rebuild
    save
    markClean

/- Save the index if look-ups changed it. -/
def close : Work Unit := do
  let l ← get
  if l.index.session.dirty && l.settings.cacheDir.isSome then
    save
  markClean

/-
  Work with a loader and close it in any case. An error of the
  closing hides an error of the work.
-/
def thenClose {α : Type} (w : Work α) : Work α := fun l =>
  match w l with
  | .ok value after =>
      match close after with
      | .ok _ closed => .ok value closed
      | .error error closed => .error error closed
  | .error error after =>
      match close after with
      | .ok _ closed => .error error closed
      | .error later closed => .error later closed

end Loader

end SymbolAtlas

------------------------------------------------------------
-- Chains
------------------------------------------------------------

namespace SymbolAtlas

namespace Loader

/- A link of the host's chain: its own, or the loader. -/
inductive Hook where
  | host
  | autoload
deriving DecidableEq, Repr

/- Hand the file of a symbol to the host, if there is one. -/
def autoload (symbol : String) : Work Unit := do
  if let some path ← resolve symbol then
    modify fun l => { l with loaded := l.loaded ++ [path] }

/- Load a file that stands alone, by its stem. -/
def autoloadFile (file : String) : Work Unit := do
  let l ← get
  match l.settings.resolvePath l.desk.disk file with
  | .error error => throw error
  | .ok path =>
      if l.desk.disk.isFile path then
        autoload (Route.ofText path).stem

/- Load all files that stand alone and join a chain. -/
def register (chain : List Hook) (atFront : Bool) :
    Work (List Hook) := do
  (← get).settings.files.forM autoloadFile
  return if atFront then .autoload :: chain
    else chain ++ [.autoload]

/- Ask every link of a chain that is a loader. -/
def askChain (symbol : String) : List Hook → Work Unit
| [] => pure ()
| .host :: rest => askChain symbol rest
| .autoload :: rest => do
    autoload symbol
    askChain symbol rest

end Loader

end SymbolAtlas
