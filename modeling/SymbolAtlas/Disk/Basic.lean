import SymbolAtlas.Error
import SymbolAtlas.Path.Route

/-
  Disks: directories, files and symbolic links.

  A place is the list of names that leads to a node from the
  root. A disk is a table of places and nodes. The root is
  always a directory and does not stand in the table.

  A disk lists the names in a directory in an order of its own.

  Key definitions:
    * `Place`, `Node`, `Listing`, `Disk`
    * `Disk.node?`, `Disk.childNames`
    * `Disk.put`, `Disk.drop`
-/

------------------------------------------------------------
-- Nodes
------------------------------------------------------------

namespace SymbolAtlas

/- The names on the way from the root to a node. -/
abbrev Place := List String

/- What can be at a place. Times are in nanoseconds. -/
inductive Node where
  | file (content : ByteArray) (mtime : Int)
  | dir (mtime : Int)
  | link (target : String)

/- The time of a directory that was not given one. -/
def Node.directoryTime : Int := 500

/- An empty directory. -/
def Node.newDirectory : Node :=
  .dir directoryTime

end SymbolAtlas

------------------------------------------------------------
-- Listings
------------------------------------------------------------

namespace SymbolAtlas

/-
  The order in which names are listed, directory by directory.
  It loses no name and adds none.
-/
structure Listing where
  arrange : Place → List String → List String
  perm : ∀ place names, (arrange place names).Perm names

/- Names are listed in the order they come in. -/
def Listing.plain : Listing :=
  ⟨fun _ names => names, fun _ names => .refl names⟩

end SymbolAtlas

------------------------------------------------------------
-- Disks
------------------------------------------------------------

namespace SymbolAtlas

/-
  The nodes, the working directory, the home directory, the
  path texts of directories that may not be listed, and the
  order of listings.
-/
structure Disk where
  nodes : List (Place × Node) := []
  cwd : Place := []
  home : String := "/"
  denied : List String := []
  listing : Listing := .plain

namespace Disk

/- The node at a place. -/
def node? (d : Disk) (place : Place) : Option Node :=
  if place.isEmpty then some .newDirectory
  else d.nodes.lookup place

/- The name of a place directly below another one. -/
def childName? (parent place : Place) : Option String :=
  match place.getLast? with
  | some name =>
      if place.dropLast = parent then some name else none
  | none => none

/- The names in a directory, the greatest first. -/
def childNames (d : Disk) (place : Place) : List String :=
  (d.nodes.filterMap fun (p, _) => childName? place p).mergeSort
    fun a b => decide (b ≤ a)

/- The disk with nothing at a place. -/
def drop (d : Disk) (place : Place) : Disk :=
  { d with nodes := d.nodes.filter (·.1 != place) }

/- The disk with a node at a place. -/
def put (d : Disk) (place : Place) (node : Node) : Disk :=
  { d with nodes := (d.drop place).nodes ++ [(place, node)] }

/- The disk without a place and all below it. -/
def dropTree (d : Disk) (place : Place) : Disk :=
  { d with nodes := d.nodes.filter (!place.isPrefixOf ·.1) }

/- A place as a path text. -/
def textOf (place : Place) : String :=
  "/" ++ Path.joined place

/- Two dots lead up, whatever the name before them is. -/
def normalNames : List String → List String → List String
| kept, [] => kept
| kept, name :: rest =>
    if Route.isVoid name then normalNames kept rest
    else if name = ".." then normalNames kept.dropLast rest
    else normalNames (kept ++ [name]) rest

/- A path text from the root, without dots. -/
def absoluteText (d : Disk) (path : String) : String :=
  let start := if Path.isRooted path then [] else d.cwd
  textOf (normalNames start (Path.names path))

end Disk

end SymbolAtlas
