import SymbolAtlas.Index.Basic

/-
  Scanning one changed file again.

  When a symbol of the file is claimed by another file that has
  itself changed on disk, that file is updated first. So files
  that exchanged a declaration are not in conflict.

  Key definitions:
    * `Index.hasDrifted`
    * `Index.scanAgain`, `Index.reclaim`
    * `Index.update`
-/

------------------------------------------------------------
-- Drift
------------------------------------------------------------

namespace SymbolAtlas

namespace Index

/- The file of an entry is not what it was when read. -/
def hasDrifted (d : Disk) (entry : Entry) : Bool :=
  d.mtime? entry.file != some entry.mtime

/- The file is one of those that stand alone. -/
def standsAlone (c : Context) (file : String) :
    Except Error Bool :=
  (c.settings.files.mapM (c.settings.resolvePath c.disk)).map
    (·.contains file)

/- Forget a file and its symbols. -/
def forget (file : String) : Work Unit :=
  revise fun k =>
    { k with
      symbols := k.symbols.filter fun _ e => e.file != file
      emptyFiles := k.emptyFiles.erase file }

end Index

end SymbolAtlas

------------------------------------------------------------
-- Updates
------------------------------------------------------------

namespace SymbolAtlas

namespace Index

/-
  Forget a file and scan it, if it is one. The result is its
  time with its symbols.
-/
def scanAgain (c : Context) (file : String) :
    Work (Option (Int × List String)) := do
  forget file
  match c.disk.stat file with
  | .error _ => return none
  | .ok stat =>
      if stat.isDirectory then return none
      let alone ← liftError (standsAlone c file)
      let found ← scan c file alone
      if found.isEmpty then noteEmpty file stat.mtime
      return some (stat.mtime, found)

/-
  Enter a symbol of a file, after updating the file that has
  it now if that one has drifted.
-/
def reclaim
    (c : Context)
    (updateOther : String → Work Unit)
    (file : String)
    (mtime : Int)
    (symbol : String) : Work Unit := do
  match ← entry? symbol with
  | none => enter symbol ⟨file, mtime⟩
  | some previous =>
      if hasDrifted c.disk previous then updateOther previous.file
      match ← entry? symbol with
      | some standing =>
          throw (.ambiguous symbol standing.file file)
      | none => enter symbol ⟨file, mtime⟩

/- Update a file, with so many updates within updates left. -/
def updateWithin (c : Context) :
    (fuel : Nat) → (file : String) → Work Unit
| 0, _ => pure ()
| fuel + 1, file => do
    match ← scanAgain c file with
    | none => pure ()
    | some (mtime, found) =>
        found.forM (reclaim c (updateWithin c fuel) file mtime)
        debug c (.updated file found.length)

/-
  Scan a file again. An update within an update forgets a file
  that has drifted and leaves none of its entries behind that
  has, so there are at most as many as there are symbols.
-/
def update (c : Context) (file : String) : Work Unit := do
  updateWithin c ((← get).known.symbols.size + 1) file

end Index

end SymbolAtlas
