import SymbolAtlas.Disk.Edit

/-
  Changes that are made to a disk from outside.

  A change that the disk refuses leaves it as it is.

  Key definitions:
    * `Disk.Change`, `Disk.apply`
    * `Disk.world`
-/

------------------------------------------------------------
-- Changes
------------------------------------------------------------

namespace SymbolAtlas

namespace Disk

/- What somebody else can do to a disk. -/
inductive Change where
  | write (path : String) (content : ByteArray) (mtime : Int)
  | makeDirectory (path : String) (mtime : Option Int)
  | makeLink (path target : String)
  | touch (path : String) (mtime : Int)
  | remove (path : String)
  | move (source target : String)
  | deny (path : String)
  | allow (path : String)

/- The disk after a change, or before it if it was refused. -/
def orSame (d : Disk) (result : Except Fault Disk) : Disk :=
  result.toOption.getD d

/- The disk with the directory that a path lies in. -/
def withParents (d : Disk) (path : String) : Disk :=
  (d.makeDirectories (Route.ofText path).parent.text).1

/- Set the time of a directory. -/
def touchDirectory (d : Disk) (path : String) (mtime : Int) :
    Disk :=
  match d.locate true path with
  | .ok ⟨place, some (.dir _)⟩ => d.put place (.dir mtime)
  | _ => d

/- Carry out a change. -/
def apply (d : Disk) : Change → Disk
| .write path content mtime =>
    let ready := d.withParents path
    ready.orSame (ready.write path content mtime)
| .makeDirectory path mtime =>
    let made := (d.makeDirectories path).1
    match mtime with
    | some time => made.touchDirectory path time
    | none => made
| .makeLink path target =>
    let ready := d.withParents path
    ready.orSame (ready.makeLink path target)
| .touch path mtime => d.orSame (d.touch path mtime)
| .remove path => d.orSame (d.removeTree path)
| .move source target => d.orSame (d.rename source target)
| .deny path =>
    { d with denied := d.absoluteText path :: d.denied }
| .allow path =>
    { d with
      denied := d.denied.filter (· != d.absoluteText path) }

/- A disk with one directory, in which one works. -/
def world (directory : Place) (home : String) : Disk where
  nodes := [(directory, .newDirectory)]
  cwd := directory
  home := home

end Disk

end SymbolAtlas
