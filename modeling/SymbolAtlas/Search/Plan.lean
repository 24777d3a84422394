import SymbolAtlas.Data.Keyed
import SymbolAtlas.Search.Glob
import SymbolAtlas.Search.Walk

/-
  Plans: which directories to walk, and for what.

  A request is a mask and a kind of entry. Together with each
  location it is split into a directory, which may hold
  wildcards, and a goal to look for there.

  Key definitions:
    * `Search.Request`, `Search.Plan`
    * `Search.directories`, the directories of a base
    * `Search.plan`
-/

------------------------------------------------------------
-- Directories
------------------------------------------------------------

namespace SymbolAtlas

namespace Search

/- A mask and the kind of entry that is looked for. -/
structure Request where
  mask : String
  kind : EntryKind
deriving DecidableEq, Repr

/- Directories with their goals, in the order of the search. -/
abbrev Plan := Keyed (List Goal)

/- A text without slashes at its end. -/
def withoutSlashes (text : String) : String :=
  String.ofList
    (text.toList.reverse.dropWhile (· == '/')).reverse

/- The directories that a base stands for, which must exist. -/
def directories (d : Disk) (base : String) :
    Except Error (List String) :=
  let found :=
    if Glob.hasMagic base.toList then
      ((Glob.expand d base).filter d.isDirectory).mergeSort
        fun a b => decide (a ≤ b)
    else
      let path := Path.unescapeBrackets base
      if d.isDirectory path then [path] else []
  if found.isEmpty then
    .error (.noDirectory (withoutSlashes base))
  else .ok found

end Search

end SymbolAtlas

------------------------------------------------------------
-- Plans
------------------------------------------------------------

namespace SymbolAtlas

namespace Search

/- The ways to read a request at the locations. -/
def splits (locations : List String) (request : Request) :
    Except Error (List Path.Split) :=
  if Path.isAbsolute request.mask then
    match locations with
    | first :: _ =>
        .error (.maskAndLocation request.mask first)
    | [] => .ok [Path.splitRecursive request.mask]
  else
    let places := if locations.isEmpty then ["."] else locations
    .ok (places.map fun location =>
      Path.splitRecursive
        (Path.escapeBrackets location ++ "/" ++ request.mask))

/- Add a goal at the end of a directory's goals. -/
def addGoal (plan : Plan) (directory : String) (goal : Goal) :
    Plan :=
  plan.insert directory
    ((plan.get? directory).getD [] ++ [goal])

/- Add what one reading of a request asks for. -/
def addSplit
    (d : Disk)
    (kind : EntryKind)
    (plan : Plan)
    (split : Path.Split) : Except Error Plan := do
  let base := if split.base.isEmpty then "." else split.base
  let found ← directories d base
  let mask ← Mask.compile split.rest
  let goal : Goal := ⟨mask, kind, split.recursive⟩
  return found.foldl (addGoal · · goal) plan

/- Add a request. -/
def addRequest
    (d : Disk)
    (locations : List String)
    (plan : Plan)
    (request : Request) : Except Error Plan := do
  let readings ← splits locations request
  readings.foldlM (addSplit d request.kind) plan

/- The plan for some requests at some locations. -/
def plan
    (d : Disk)
    (locations : List String)
    (requests : List Request) : Except Error Plan :=
  requests.foldlM (addRequest d locations) .empty

end Search

end SymbolAtlas
