import SymbolAtlas.Disk.Locate

/-
  Real paths: texts without links and dots.

  A path need not exist to be resolved. A link is opened once;
  when it is met again while it is still open the search stops
  there and what is left of the texts is kept as it is. If such
  a path leads into a cycle of links it cannot be resolved.

  Key definitions:
    * `Disk.realRoute`
    * `Disk.resolve`, `Disk.realPath`
    * `Disk.expandHome`
-/

------------------------------------------------------------
-- Opening Links
------------------------------------------------------------

namespace SymbolAtlas

namespace Disk

/- A name to go on with, or the end of a link's target. -/
inductive Errand where
  | name (text : String)
  | leave (link : Place)
deriving DecidableEq, Repr

/- The names that are left of each target, the last one first. -/
def leftovers : List Errand → List (List String)
| [] => [[]]
| .leave _ :: rest => [] :: leftovers rest
| .name text :: rest =>
    match leftovers rest with
    | names :: others => (text :: names) :: others
    | [] => [[text]]

/- A path from the root, without dots. -/
def tidied (path : String) : Route :=
  let route := Route.ofText path
  ⟨route.root, normalNames [] route.names⟩

/-
  Where a search stops at a link. What is left of each target
  is put behind it as text; a text that starts with a slash
  stands alone.
-/
def stoppedAt (link : Place) (errands : List Errand) : Route :=
  tidied ((leftovers errands).foldl
    (fun path names => Path.child path (Path.joined names))
    (textOf link))

/- The link is being opened. -/
def isOpen (link : Place) (errands : List Errand) : Bool :=
  errands.contains (.leave link)

/-
  Do errands from a place, with the places that links were
  found to lead to. A cycle ends the search.
-/
def runErrands (d : Disk) :
    (fuel : Nat) → List (Place × Place) → Place →
      List Errand → Route
| 0, _, place, _ => ⟨"/", place⟩
| _, _, place, [] => ⟨"/", place⟩
| fuel + 1, known, place, .leave link :: rest =>
    runErrands d fuel ((link, place) :: known) place rest
| fuel + 1, known, place, .name name :: rest =>
    if Route.isVoid name then runErrands d fuel known place rest
    else if name = ".." then
      runErrands d fuel known place.dropLast rest
    else
      let next := place ++ [name]
      match d.node? next with
      | some (.link target) =>
          match known.lookup next with
          | some real => runErrands d fuel known real rest
          | none =>
              if isOpen next rest then
                stoppedAt next rest
              else
                let start :=
                  if Path.isRooted target then [] else place
                runErrands d fuel known start
                  ((Path.names target).map .name ++
                    .leave next :: rest)
      | _ => runErrands d fuel known next rest

/- The errands that opening a node adds. -/
def errandCount : Node → Nat
| .link target => (Path.names target).length + 1
| _ => 0

/- The errands that opening all links can add. -/
def linkNames (d : Disk) : Nat :=
  d.nodes.foldr (fun (_, node) n => errandCount node + n) 0

/- A real path, which need not exist. -/
def realRoute (d : Disk) (start : Place) (names : List String) :
    Route :=
  runErrands d (names.length + d.linkNames + 1) [] start
    (names.map .name)

end Disk

end SymbolAtlas

------------------------------------------------------------
-- Resolving
------------------------------------------------------------

namespace SymbolAtlas

namespace Disk

/- The real path of a path text. -/
def resolve (d : Disk) (path : String) : Except Error String :=
  let route := Route.ofText path
  let start := if route.isRooted then [] else d.cwd
  let real := (d.realRoute start route.names).text
  match d.stat real with
  | .error .tooManyLinks => .error .linkLoop
  | _ => .ok real

/- The text holds a character that no path on a disk holds. -/
def holdsNull (text : String) : Bool :=
  text.toList.contains '\x00'

/- The real path of a path text that comes from outside. -/
def realPath (d : Disk) (path : String) : Except Error String :=
  if holdsNull path then .error .nullCharacter
  else d.resolve path

/- A leading `~` is the home directory; no other is known. -/
def expandHome (d : Disk) (route : Route) : Except Error Route :=
  match route.isRooted, route.names with
  | false, first :: rest =>
      if first = "~" then
        .ok ((Route.ofText d.home) ++ (⟨"", rest⟩ : Route))
      else if first.toList.head? = some '~' then
        .error (if holdsNull first then .nullCharacter
          else .unknownHome)
      else .ok route
  | _, _ => .ok route

end Disk

end SymbolAtlas
