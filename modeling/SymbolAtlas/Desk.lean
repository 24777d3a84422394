import SymbolAtlas.Disk.Edit
import SymbolAtlas.Notice

/-
  Desks: a disk to work on, and a place to tell things.

  Work on a desk may fail. What it changed and told before that
  stays.

  Key definitions:
    * `Desk`, `Desk.Work`
    * `Desk.attempt`
    * `Desk.ensureDirectory`
-/

namespace SymbolAtlas

/- A disk, and what was told while it was worked on. -/
structure Desk where
  disk : Disk
  notices : List Notice := []

namespace Desk

/- Work on a disk, which may fail. -/
abbrev Work := EStateM Error Desk

/- Let somebody change the disk. -/
def change (f : Disk → Disk) : Work Unit :=
  modify fun t => { t with disk := f t.disk }

/- Make a change that may be refused, and then is an error. -/
def attempt
    (edit : Disk → Except Fault Disk)
    (error : Fault → Error) : Work Unit := do
  match edit (← get).disk with
  | .ok disk => change fun _ => disk
  | .error fault => throw (error fault)

/- End with an error if there is one. -/
def liftError {α : Type} (result : Except Error α) : Work α :=
  match result with
  | .ok value => pure value
  | .error error => throw error

/- Tell something, if it can be shown. -/
def tell (notice : Notice) : Work Unit := do
  liftError notice.check
  modify fun t => { t with notices := t.notices ++ [notice] }

/- The time of files that a process writes itself. -/
def ownTime : Int := 0

/- The mode of directories that are made for a program. -/
def openMode : Nat := 0o777

/- Make a directory with its parents, unless it exists. -/
def ensureDirectory (path : String) (mode : Nat) :
    Work String := do
  let name := Path.normal path
  let (disk, fault) := (← get).disk.makeDirectories name
  change fun _ => disk
  match fault with
  | some fault => throw (.directoryNotCreated name mode fault)
  | none => return name

end Desk

end SymbolAtlas
