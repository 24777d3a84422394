import SymbolAtlas.Index.Rebuild
import SymbolAtlas.Index.Update

/-
  Looking up the file of a symbol.

  A look-up brings the index up to date where it must: an
  unknown symbol makes it rebuild, once in a session, and a
  changed file is scanned again. A name that was missed too
  often in a row is not looked for any more.

  Key definitions:
    * `Index.retryLimit`
    * `Index.bringUpToDate`
    * `Index.lookup`
-/

namespace SymbolAtlas

namespace Index

/- So many misses in a row are the last. -/
def retryLimit : Int := 3

/- The entry leads to a file that exists. -/
def isLive (d : Disk) : Option Entry → Bool
| some entry => d.isFile entry.file
| none => false

def markDirty : Work Unit :=
  renew fun s => { s with dirty := true }

/- The entry of a symbol after what must be scanned has been. -/
def bringUpToDate (c : Context) (symbol : String) :
    Work (Option Entry) := do
  match ← entry? symbol with
  | some entry =>
      if c.disk.isFile entry.file then
        if hasDrifted c.disk entry then
          update c entry.file
          markDirty
        entry? symbol
      else rescan (some entry)
  | none => rescan none
where
  rescan (entry : Option Entry) : Work (Option Entry) := do
    if (← get).session.refreshed then return entry
    refresh c
    markDirty
    entry? symbol

/- Count one more miss of a name that has no live entry. -/
def miss (symbol : String) (misses : Int) : Work Unit := do
  revise fun k =>
    { k with
      missing := k.missing.insert symbol
        (min (misses + 1) retryLimit)
      symbols := k.symbols.erase symbol }
  markDirty

/- The symbol was found, so it is not missing. -/
def hit (symbol : String) : Work Unit := do
  if (← get).known.missing.contains symbol then
    revise fun k => { k with missing := k.missing.erase symbol }
    markDirty

/- The file that declares a symbol. -/
def lookup (c : Context) (symbol : String) :
    Work (Option String) := do
  let misses := ((← get).known.missing.get? symbol).getD 0
  if misses ≥ retryLimit then return none
  let entry ←
    if c.settings.autoRebuild then bringUpToDate c symbol
    else entry? symbol
  if c.settings.autoRebuild && !isLive c.disk entry then
    miss symbol misses
    return none
  match entry with
  | none => return none
  | some found =>
      hit symbol
      return some (Path.normal found.file)

end Index

end SymbolAtlas
