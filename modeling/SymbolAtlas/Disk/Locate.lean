import SymbolAtlas.Disk.Basic

/-
  Finding the place that a path text leads to.

  Names are followed from left to right. A link sends the
  search to its target, at most forty times; two dots lead to
  the parent of the place that has been reached.

  Key definitions:
    * `Disk.Found`, `Disk.locate`
    * `Disk.stat`, `Disk.isFile`, `Disk.isDirectory`
    * `Disk.list`, `Disk.read`
-/

------------------------------------------------------------
-- Following Names
------------------------------------------------------------

namespace SymbolAtlas

namespace Disk

/- A place and its node, if there is one. -/
structure Found where
  place : Place
  node : Option Node

/- Where a search ends, or the link that it comes to. -/
inductive Progress where
  | arrived (found : Found)
  | detour (parent : Place) (target : String) (rest : List String)

/-
  Follow names from a directory up to the first link. The last
  name need not exist, and is followed if it is a link only
  when asked for.
-/
def advance (d : Disk) (followLast : Bool) :
    Place → List String → Except Fault Progress
| place, [] => .ok (.arrived ⟨place, d.node? place⟩)
| place, name :: rest =>
    if Route.isVoid name then advance d followLast place rest
    else if name = ".." then
      advance d followLast place.dropLast rest
    else
      match d.node? (place ++ [name]) with
      | none =>
          if rest.isEmpty then
            .ok (.arrived ⟨place ++ [name], none⟩)
          else .error .noEntry
      | some (.file content mtime) =>
          if rest.isEmpty then
            .ok (.arrived
              ⟨place ++ [name], some (.file content mtime)⟩)
          else .error .notDirectory
      | some (.dir _) =>
          advance d followLast (place ++ [name]) rest
      | some (.link target) =>
          if rest.isEmpty && !followLast then
            .ok (.arrived
              ⟨place ++ [name], some (.link target)⟩)
          else .ok (.detour place target rest)

/- Links that one search may follow. -/
def linkLimit : Nat := 40

/- Follow names through at most so many links. -/
def follow (d : Disk) (followLast : Bool) :
    (links : Nat) → Place → List String → Except Fault Found
| links, place, names =>
    match advance d followLast place names with
    | .error fault => .error fault
    | .ok (.arrived found) => .ok found
    | .ok (.detour parent target rest) =>
        match links with
        | 0 => .error .tooManyLinks
        | links + 1 =>
            let start :=
              if Path.isRooted target then [] else parent
            follow d followLast links start
              (Path.names target ++ rest)

/- The place that a path text leads to. -/
def locate (d : Disk) (followLast : Bool) (path : String) :
    Except Fault Found :=
  if path.isEmpty then .error .noEntry
  else
    let start := if Path.isRooted path then [] else d.cwd
    follow d followLast linkLimit start (Path.names path)

end Disk

end SymbolAtlas

------------------------------------------------------------
-- Questions
------------------------------------------------------------

namespace SymbolAtlas

namespace Disk

/- The time of a node, and whether it is a directory. -/
structure Stat where
  isDirectory : Bool
  mtime : Int
deriving DecidableEq, Repr

/- What a path leads to, links being followed. -/
def stat (d : Disk) (path : String) : Except Fault Stat :=
  match d.locate true path with
  | .error fault => .error fault
  | .ok found =>
      match found.node with
      | some (.file _ mtime) => .ok ⟨false, mtime⟩
      | some (.dir mtime) => .ok ⟨true, mtime⟩
      | _ => .error .noEntry

/- The time of what a path leads to. -/
def mtime? (d : Disk) (path : String) : Option Int :=
  (d.stat path).toOption.map Stat.mtime

def exists? (d : Disk) (path : String) : Bool :=
  (d.stat path).toOption.isSome

def isDirectory (d : Disk) (path : String) : Bool :=
  (d.stat path).toOption.any Stat.isDirectory

def isFile (d : Disk) (path : String) : Bool :=
  (d.stat path).toOption.any (!·.isDirectory)

theorem isFile_of_stat
    {d : Disk}
    {path : String}
    {mtime : Int}
    (hStat : d.stat path = .ok ⟨false, mtime⟩) :
    d.isFile path = true := by
  unfold isFile
  rw [hStat]
  rfl

/- Something is at the path, be it a link to nowhere. -/
def isPresent (d : Disk) (path : String) : Bool :=
  match d.locate false path with
  | .ok found => found.node.isSome
  | .error _ => false

/- The names in a directory, in the order of the listing. -/
def list (d : Disk) (path : String) :
    Except Fault (List String) :=
  if d.denied.contains (d.absoluteText path) then
    .error .notPermitted
  else
    match d.locate true path with
    | .error fault => .error fault
    | .ok found =>
        match found.node with
        | some (.dir _) =>
            .ok (d.listing.arrange found.place
              (d.childNames found.place))
        | some (.file _ _) => .error .notDirectory
        | _ => .error .noEntry

/- The content of a file. -/
def read (d : Disk) (path : String) : Except Fault ByteArray :=
  match d.locate true path with
  | .error fault => .error fault
  | .ok found =>
      match found.node with
      | some (.file content _) => .ok content
      | some (.dir _) => .error .isDirectory
      | _ => .error .noEntry

end Disk

end SymbolAtlas
