import SymbolAtlas.Mask.Exclusion
import SymbolAtlas.Search.Plan

/-
  Queries: searches put together step by step.

  A query collects requests, locations and filters. Running it
  makes a plan, walks the directories of the plan one after
  the other, and then adds what was appended to the query.

  Key definitions:
    * `Query`, `Query.find`, `Query.findFiles`
    * `Query.fromDirs`, `Query.inDirs`, `Query.exclude`
    * `Query.run`
-/

------------------------------------------------------------
-- Queries
------------------------------------------------------------

namespace SymbolAtlas

/- A filter, with a label if its tests are to be noted. -/
structure Query.Filter where
  label : Option String := none
  test : Record → Bool

/- What a search does on a disk, tests noted by label. -/
abbrev Query.Search := Disk → Search.Trace (Option String)

/-
  A search that has not been run. The filters that decide on
  results and on descent are given by position.
-/
structure Query where
  requests : List Search.Request := []
  locations : List String := []
  filters : List Query.Filter := []
  content : List Nat := []
  descent : List Nat := []
  order : Option (Record → Record → Bool) := none
  childFirst : Bool := false
  maxDepth : Option Nat := none
  ignoreUnreadable : Bool := true
  appended : List Query.Search := []

end SymbolAtlas

------------------------------------------------------------
-- Masks and Locations
------------------------------------------------------------

namespace SymbolAtlas

namespace Query

/- The mask without a leading `**` and its separator. -/
def withoutLeadingStars (mask : String) : String :=
  match mask.toList with
  | '*' :: '*' :: c :: rest =>
      if Path.isSeparator c then String.ofList rest else mask
  | _ => mask

/-
  The request of a mask. Separators at the end are dropped; a
  mask for files may have none, and no mask may be empty.
-/
def request (kind : EntryKind) (mask : String) :
    Except Error Search.Request :=
  let bare := Path.dropTrailingSeparators mask
  if bare.isEmpty || (kind == .file && bare != mask) then
    .error (.invalidMask mask)
  else .ok ⟨withoutLeadingStars bare, kind⟩

def ask (q : Query) (kind : EntryKind) (masks : List String) :
    Except Error Query :=
  (masks.mapM (request kind)).map fun requests =>
    { q with requests := q.requests ++ requests }

/- Look for files. -/
def files (q : Query) (masks : List String) :
    Except Error Query :=
  q.ask .file masks

/- Look for directories. -/
def directories (q : Query) (masks : List String) :
    Except Error Query :=
  q.ask .dir masks

/- Without masks everything is meant. -/
def orAll (masks : List String) : List String :=
  if masks.isEmpty then ["*"] else masks

def findFiles (masks : List String) : Except Error Query :=
  files {} (orAll masks)

def findDirectories (masks : List String) : Except Error Query :=
  directories {} (orAll masks)

def find (masks : List String) : Except Error Query := do
  (← files {} (orAll masks)).directories (orAll masks)

/- A location: a path without separators at its end. -/
def location (suffix path : String) : Except Error String :=
  if path.isEmpty then .error (.invalidDirectory path)
  else .ok (Path.dropTrailingSeparators path ++ suffix)

def lookIn (q : Query) (suffix : String) (paths : List String) :
    Except Error Query :=
  (paths.mapM (location suffix)).map fun locations =>
    { q with locations := q.locations ++ locations }

/- Look directly inside directories. -/
def inDirs (q : Query) (paths : List String) :
    Except Error Query :=
  q.lookIn "" paths

/- Look inside directories and all their subdirectories. -/
def fromDirs (q : Query) (paths : List String) :
    Except Error Query :=
  q.lookIn "/**" paths

end Query

end SymbolAtlas

------------------------------------------------------------
-- Filters and Order
------------------------------------------------------------

namespace SymbolAtlas

namespace Query

/- Keep only results that pass a filter. -/
def filter (q : Query) (f : Filter) : Query :=
  { q with
    filters := q.filters ++ [f]
    content := q.content ++ [q.filters.length] }

/- Go down only into directories that pass a filter. -/
def descentFilter (q : Query) (f : Filter) : Query :=
  { q with
    filters := q.filters ++ [f]
    descent := q.descent ++ [q.filters.length] }

/- Exclusions stop descent, and some also remove results. -/
def leaveOut (q : Query) (e : Exclusion) : Query :=
  let index := q.filters.length
  let keeps (r : Record) := e.keeps r.isDirectory r.relative
  { q with
    filters := q.filters ++ [⟨none, keeps⟩]
    descent := q.descent ++ [index]
    content :=
      if e.scope.filtersResults then q.content ++ [index]
      else q.content }

def exclude (q : Query) (masks : List String) :
    Except Error Query :=
  (masks.mapM Exclusion.compile).map (·.foldl leaveOut q)

/- Sort the entries of each directory. -/
def sortBy (q : Query) (key : Record.SortKey) : Query :=
  { q with order := some key.le }

/- A negative limit is none. -/
def limitDepth (q : Query) (limit : Option Int) : Query :=
  { q with
    maxDepth := limit.bind fun n =>
      if n < 0 then none else some n.toNat }

/- Add a path to the results. -/
def appendPath (q : Query) (path : String) : Query :=
  let found (d : Disk) : Search.Trace (Option String) :=
    ⟨[.found (Record.ofPath d path)], none⟩
  { q with appended := q.appended ++ [found] }

/- Add everything another search does. -/
def appendSearch (q : Query) (search : Search) : Query :=
  { q with appended := q.appended ++ [search] }

end Query

end SymbolAtlas

------------------------------------------------------------
-- Running
------------------------------------------------------------

namespace SymbolAtlas

namespace Query

/- The walker of a query. -/
def walker (q : Query) : Search.Walker where
  filters := q.filters.map Filter.test
  content := q.content
  descent := q.descent
  order := q.order
  childFirst := q.childFirst
  maxDepth := q.maxDepth
  ignoreUnreadable := q.ignoreUnreadable

def labelOf (q : Query) (index : Nat) : Option String :=
  q.filters[index]?.bind Filter.label

/- The directories to walk, and for what. -/
def plan (q : Query) (d : Disk) : Except Error Search.Plan :=
  Search.plan d q.locations q.requests

/- Walk the directories of a plan. -/
def walkPlan (q : Query) (d : Disk) (plan : Search.Plan) :
    Search.Trace (Option String) :=
  (Search.Trace.concat (plan.entries.map fun (directory, goals) =>
    q.walker.walk d directory goals)).map q.labelOf

/- Everything that a query does on a disk. -/
def run (q : Query) : Search := fun d =>
  match q.plan d with
  | .error error => .fail error
  | .ok plan =>
      q.walkPlan d plan ++
        .concat (q.appended.map fun search => search d)

/- The records found, or the error that ended the search. -/
def collect (q : Query) (d : Disk) : Except Error (List Record) :=
  let trace := q.run d
  match trace.failure with
  | some error => .error error
  | none => .ok trace.records

end Query

end SymbolAtlas
