import SymbolAtlas.Desk

/-
  Locks on files that say who may build.

  Opening a lock makes its file, which is never removed. Once a
  lock is open it can change its mode. While a process waits
  for a lock, others may change the disk.

  Key definitions:
    * `LockMode`, `Others`
    * `Lock`, `Lock.acquire`, `Lock.release`, `Lock.close`
-/

------------------------------------------------------------
-- Locks
------------------------------------------------------------

namespace SymbolAtlas

/- Many may hold a lock shared, one alone exclusively. -/
inductive LockMode where
  | shared
  | exclusive
deriving DecidableEq, Repr

/- A lock: its file, whether it is open, and how it is held. -/
structure Lock where
  path : String
  isOpen : Bool := false
  mode : Option LockMode := none
deriving DecidableEq, Repr

/- What others do to the disk before a lock is granted. -/
abbrev Others := LockMode → Disk → Disk

/- Nobody else is there. -/
def Others.absent : Others :=
  fun _ d => d

namespace Lock

/- Open the file of a lock, unless it is open. -/
def opened (l : Lock) : Desk.Work Lock := do
  if l.isOpen then return l
  Desk.attempt (·.openAppending l.path Desk.ownTime)
    fun fault => .lockNotOpened l.path ⟨fault, l.path, none⟩
  return { l with isOpen := true }

/- Wait until the lock is held in a mode. -/
def acquire (l : Lock) (mode : LockMode) (others : Others) :
    Desk.Work Lock := do
  let l ← l.opened
  Desk.change (others mode)
  return { l with mode := some mode }

/- Hold the lock no longer. -/
def release (l : Lock) : Lock :=
  { l with mode := none }

def close (l : Lock) : Lock :=
  { l with isOpen := false, mode := none }

end Lock

end SymbolAtlas
