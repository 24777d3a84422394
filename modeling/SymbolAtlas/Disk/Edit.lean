import SymbolAtlas.Disk.Locate

/-
  Changing a disk.

  Every change either gives a new disk or tells the fault and
  leaves the disk alone.

  Key definitions:
    * `Disk.write`, `Disk.openAppending`
    * `Disk.makeDirectory`, `Disk.makeDirectories`
    * `Disk.unlink`, `Disk.rename`
    * `Disk.touch`, `Disk.makeLink`, `Disk.removeTree`
-/

------------------------------------------------------------
-- Files
------------------------------------------------------------

namespace SymbolAtlas

namespace Disk

/- Write a file, which is made if its directory exists. -/
def write
    (d : Disk)
    (path : String)
    (content : ByteArray)
    (mtime : Int) : Except Fault Disk :=
  match d.locate true path with
  | .error fault => .error fault
  | .ok found =>
      match found.node with
      | some (.dir _) => .error .isDirectory
      | _ => .ok (d.put found.place (.file content mtime))

/- Open a file for appending, which makes it if needed. -/
def openAppending
    (d : Disk)
    (path : String)
    (mtime : Int) : Except Fault Disk :=
  match d.locate true path with
  | .error fault => .error fault
  | .ok found =>
      match found.node with
      | some (.dir _) => .error .isDirectory
      | some _ => .ok d
      | none => .ok (d.put found.place (.file .empty mtime))

/- Remove a file or a link. -/
def unlink (d : Disk) (path : String) : Except Fault Disk :=
  match d.locate false path with
  | .error fault => .error fault
  | .ok found =>
      match found.node with
      | none => .error .noEntry
      | some (.dir _) => .error .isDirectory
      | some _ => .ok (d.drop found.place)

/- Remove whatever is at a path, with all below it. -/
def removeTree (d : Disk) (path : String) : Except Fault Disk :=
  match d.locate false path with
  | .error fault => .error fault
  | .ok found =>
      match found.node with
      | none => .error .noEntry
      | some _ => .ok (d.dropTree found.place)

/- Set the time of a file. -/
def touch
    (d : Disk)
    (path : String)
    (mtime : Int) : Except Fault Disk :=
  match d.locate true path with
  | .error fault => .error fault
  | .ok found =>
      match found.node with
      | some (.file content _) =>
          .ok (d.put found.place (.file content mtime))
      | some _ => .ok d
      | none => .error .noEntry

/- Make a symbolic link. -/
def makeLink (d : Disk) (path target : String) :
    Except Fault Disk :=
  match d.locate false path with
  | .error fault => .error fault
  | .ok found =>
      match found.node with
      | some _ => .error .alreadyThere
      | none => .ok (d.put found.place (.link target))

end Disk

end SymbolAtlas

------------------------------------------------------------
-- Moving
------------------------------------------------------------

namespace SymbolAtlas

namespace Disk

/- The place of a node after its tree was moved. -/
def movedPlace (source target place : Place) : Place :=
  if source.isPrefixOf place then
    target ++ place.drop source.length
  else place

/- Move a tree to a place where nothing is in the way. -/
def moveTree (d : Disk) (source target : Place) : Disk :=
  let cleared := d.dropTree target
  { d with
    nodes := cleared.nodes.map fun (place, node) =>
      (movedPlace source target place, node) }

/-
  Rename a node, which replaces a file, a link or an empty
  directory at the target.
-/
def rename (d : Disk) (source target : String) :
    Except Fault Disk :=
  match d.locate false source, d.locate false target with
  | .error fault, _ => .error fault
  | _, .error fault => .error fault
  | .ok src, .ok dst =>
      match src.node, dst.node with
      | none, _ => .error .noEntry
      | some (.dir _), some (.dir _) =>
          if src.place = dst.place then .ok d
          else if src.place.isPrefixOf dst.place then
            .error .badArgument
          else if (d.childNames dst.place).isEmpty then
            .ok (d.moveTree src.place dst.place)
          else .error .notEmpty
      | some (.dir _), some _ => .error .notDirectory
      | some (.dir _), none =>
          if src.place.isPrefixOf dst.place then
            .error .badArgument
          else .ok (d.moveTree src.place dst.place)
      | some _, some (.dir _) => .error .isDirectory
      | some _, _ =>
          if src.place = dst.place then .ok d
          else .ok (d.moveTree src.place dst.place)

end Disk

end SymbolAtlas

------------------------------------------------------------
-- Directories
------------------------------------------------------------

namespace SymbolAtlas

namespace Disk

/- Make one directory. -/
def makeDirectory (d : Disk) (path : String) :
    Except Fault Disk :=
  match d.locate false path with
  | .error fault => .error fault
  | .ok found =>
      match found.node with
      | some _ => .error .alreadyThere
      | none => .ok (d.put found.place .newDirectory)

/-
  Make a directory with its parents, given by its names. It is
  no fault if it exists. What was made before a fault stays.
-/
def makeRoute (root : String) :
    List String → Disk → Disk × Option Fault
| names, d =>
    let path := (Route.mk root names.reverse).text
    match d.makeDirectory path with
    | .ok made => (made, none)
    | .error .noEntry =>
        match names with
        | [] => (d, some .noEntry)
        | _ :: above =>
            match makeRoute root above d with
            | (made, some fault) => (made, some fault)
            | (made, none) =>
                match made.makeDirectory path with
                | .ok last => (last, none)
                | .error fault =>
                    if fault ≠ .noEntry &&
                        made.isDirectory path then (made, none)
                    else (made, some fault)
    | .error fault =>
        if d.isDirectory path then (d, none)
        else (d, some fault)

/- Make a directory with its parents. -/
def makeDirectories (d : Disk) (path : String) :
    Disk × Option Fault :=
  let route := Route.ofText path
  makeRoute route.root route.names.reverse d

end Disk

end SymbolAtlas
