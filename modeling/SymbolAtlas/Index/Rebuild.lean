import SymbolAtlas.Index.Basic

/-
  Scanning everything again.

  All sources are gone through in order. A file whose time is
  the one that is known for it is not scanned; the symbols it
  is known for are entered again. Files that are no longer
  found are forgotten.

  Key definitions:
    * `Index.Memory`, what was known before
    * `Index.takeIn`, `Index.takeAll`
    * `Index.rebuild`, `Index.refresh`
-/

------------------------------------------------------------
-- Memory
------------------------------------------------------------

namespace SymbolAtlas

namespace Index

/- Times and symbols of files before a rebuild. -/
structure Memory where
  times : Keyed Int := .empty
  symbols : Keyed (List String) := .empty
deriving DecidableEq, Repr

namespace Memory

/- Remember a symbol of a file. -/
def add (m : Memory) (symbol : String) (entry : Entry) : Memory :=
  ⟨m.times.insert entry.file entry.mtime,
    m.symbols.insert entry.file
      ((m.symbols.get? entry.file).getD [] ++ [symbol])⟩

/- All that a snapshot knows about files. -/
def ofSnapshot (s : Snapshot) : Memory :=
  s.symbols.entries.foldl
    (fun m (symbol, entry) => m.add symbol entry)
    ⟨s.emptyFiles, .empty⟩

/- The symbols of a source that has not changed. -/
def symbols? (m : Memory) (source : Source) :
    Option (List String) :=
  if m.times.get? source.path = some source.mtime then
    some ((m.symbols.get? source.path).getD [])
  else none

end Memory

end Index

end SymbolAtlas

------------------------------------------------------------
-- Rebuilding
------------------------------------------------------------

namespace SymbolAtlas

namespace Index

/- Enter a symbol of a source, unless another file has it. -/
def claim (source : Source) (symbol : String) : Work Unit := do
  match ← entry? symbol with
  | some previous =>
      throw (.ambiguous symbol previous.file source.path)
  | none => enter symbol ⟨source.path, source.mtime⟩

/- Enter all symbols of a source. -/
def takeIn (c : Context) (m : Memory) (source : Source) :
    Work Unit := do
  let found ←
    match m.symbols? source with
    | some symbols => pure symbols
    | none => scan c source.path source.alone
  if found.isEmpty then noteEmpty source.path source.mtime
  found.forM (claim source)

/-
  Go through sources, each path once. The result counts the
  paths.
-/
def takeAll (c : Context) (m : Memory) :
    (seen : List String) → List Source → Work Nat
| seen, [] => pure seen.length
| seen, source :: rest =>
    if seen.contains source.path then takeAll c m seen rest
    else do
      takeIn c m source
      takeAll c m (source.path :: seen) rest

/- Forget which files declare what, but not what is missing. -/
def forgetFiles : Work Unit :=
  revise fun k => { k with symbols := .empty, emptyFiles := .empty }

/- Go through all sources again. -/
def rebuild (c : Context) : Work Unit := do
  renew fun s => { s with refreshed := true, walks := s.walks + 1 }
  let memory := Memory.ofSnapshot (← get).known
  forgetFiles
  let sources := Sources.ofSettings c.disk c.settings
  let files ← takeAll c memory [] sources.items
  match sources.failure with
  | some error => throw error
  | none =>
      tell [.indexed (← get).known.symbols.size files]

/- Rebuild, unless this session already did. -/
def refresh (c : Context) : Work Unit := do
  if !(← get).session.refreshed then rebuild c

end Index

end SymbolAtlas
