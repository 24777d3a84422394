import SymbolAtlas.Index.Snapshot
import SymbolAtlas.Index.Sources
import SymbolAtlas.Source.Scan

/-
  The index at work: its state, its session and its scans.

  Operations of an index change its state and may end in an
  error. What was changed before an error stays changed.

  Key definitions:
    * `Session`, `Index`, `Index.Context`
    * `Index.Work`, the operations of an index
    * `Index.scan`, `Index.declare`
-/

------------------------------------------------------------
-- State
------------------------------------------------------------

namespace SymbolAtlas

/-
  What one process remembers: whether the cache was loaded,
  whether everything was scanned again, whether there is
  something to save, and the number of full scans.
-/
structure Session where
  cacheLoaded : Bool := false
  refreshed : Bool := false
  dirty : Bool := false
  walks : Nat := 0
deriving DecidableEq, Repr

/-
  An index: what it knows and its session. The scans it made
  and the notices it gave are kept in order.
-/
structure Index where
  known : Snapshot := {}
  session : Session := {}
  scanned : List Scan := []
  notices : List Notice := []
deriving DecidableEq, Repr

/- What an index works on. It never changes its disk. -/
structure Index.Context where
  disk : Disk
  settings : Settings
  strict : Bool

namespace Index

/- An operation on an index, which may fail. -/
abbrev Work := EStateM Error Index

end Index

end SymbolAtlas

------------------------------------------------------------
-- Steps
------------------------------------------------------------

namespace SymbolAtlas

namespace Index

/- Change what is known. -/
def revise (f : Snapshot → Snapshot) : Work Unit :=
  modify fun i => { i with known := f i.known }

/- Change the session. -/
def renew (f : Session → Session) : Work Unit :=
  modify fun i => { i with session := f i.session }

/- End with an error if there is one. -/
def liftError {α : Type} (result : Except Error α) : Work α :=
  match result with
  | .ok value => pure value
  | .error error => throw error

def tell (notices : List Notice) : Work Unit :=
  modify fun i => { i with notices := i.notices ++ notices }

/- Tell something, if it can be shown, when everything is told. -/
def debug (c : Context) (notice : Notice) : Work Unit :=
  if c.settings.isDebug then do
    liftError notice.check
    tell [notice]
  else pure ()

/- Scan a file. The scan is noted even if it fails. -/
def scan (c : Context) (path : String) (alone : Bool) :
    Work (List String) := do
  let s := Scan.ofPath path alone
  modify fun i => { i with scanned := i.scanned ++ [s] }
  let result ← liftError (s.run c.disk c.strict)
  tell result.notices
  return result.symbols

/- The file declares nothing. -/
def noteEmpty (path : String) (mtime : Int) : Work Unit :=
  revise fun k =>
    { k with emptyFiles := k.emptyFiles.insert path mtime }

/- The symbol is in the file, and no longer missing. -/
def enter (symbol : String) (entry : Entry) : Work Unit :=
  revise fun k =>
    { k with
      symbols := k.symbols.insert symbol entry
      missing := k.missing.erase symbol }

/- The entry of a symbol. -/
def entry? (symbol : String) : Work (Option Entry) :=
  return (← get).known.symbols.get? symbol

/- Forget everything. -/
def clear : Work Unit :=
  revise fun _ => {}

/- Know what a snapshot says, and nothing else. -/
def restore (snapshot : Snapshot) : Work Unit :=
  revise fun _ => snapshot

/- The symbols by name, with the files that declare them. -/
def listing (i : Index) : List (String × String) :=
  i.known.symbols.sorted.map fun (symbol, entry) =>
    (symbol, Path.normal entry.file)

end Index

end SymbolAtlas
