import SymbolAtlas.Search.Query
import SymbolAtlas.Settings.Basic

/-
  The source files that settings ask for.

  Roots come first, in order: a file stands for itself, and a
  directory is searched. Files that stand alone follow. The
  list may end in an error, which counts only when everything
  before it has been dealt with.

  Key definitions:
    * `Source`, `Sources`
    * `Sources.ofRoot`, `Sources.ofFile`
    * `Sources.ofSettings`
-/

------------------------------------------------------------
-- Lists of Sources
------------------------------------------------------------

namespace SymbolAtlas

/- A source file, its time, and whether it stands alone. -/
structure Source where
  path : String
  mtime : Int
  alone : Bool := false
deriving DecidableEq, Repr

/- Sources in order, and the error that cuts the list short. -/
structure Sources where
  items : List Source := []
  failure : Option Error := none
deriving DecidableEq, Repr

namespace Sources

def fail (error : Error) : Sources :=
  ⟨[], some error⟩

/- More sources, unless the first list was cut short. -/
def append (first second : Sources) : Sources :=
  match first.failure with
  | some _ => first
  | none => ⟨first.items ++ second.items, second.failure⟩

instance : Append Sources :=
  ⟨append⟩

/- One list after the other. -/
def concat (lists : List Sources) : Sources :=
  lists.foldr (· ++ ·) {}

/- A list that could not even be begun is cut short. -/
def ofExcept : Except Error Sources → Sources
| .ok sources => sources
| .error error => fail error

end Sources

end SymbolAtlas

------------------------------------------------------------
-- Searching Roots
------------------------------------------------------------

namespace SymbolAtlas

namespace Sources

/- The real paths of existing items among some paths. -/
def existing (d : Disk) (s : Settings) (paths : List String) :
    Except Error (List String) :=
  (paths.mapM (s.resolvePath d)).map (·.filter d.exists?)

/- The record is not one of some real paths. -/
def isAllowed (d : Disk) (banned : List String) (r : Record) :
    Bool :=
  match d.resolve r.path with
  | .ok real => !banned.contains real
  | .error _ => true

/- The search for the sources in a directory. -/
def queryOf (d : Disk) (s : Settings) (directory : String) :
    Except Error Query := do
  let banned ← existing d s (s.ignore ++ s.exclude)
  let query ← Query.findFiles s.accept
  let query ← query.fromDirs [directory]
  let query ← query.exclude s.ignore
  let allowed : Query.Filter := ⟨none, isAllowed d banned⟩
  return ({ query with ignoreUnreadable := s.ignoreUnreadable }
    |>.sortBy .name |>.filter allowed |>.descentFilter allowed)

/- What a search finds, as sources. -/
def ofTrace {ι : Type} (t : Search.Trace ι) : Sources :=
  ⟨t.records.map fun r => ⟨r.path, r.mtime, false⟩, t.failure⟩

/- The sources of a root. -/
def ofRoot (d : Disk) (s : Settings) (root : String) : Sources :=
  .ofExcept do
    let path ← s.resolvePath d root
    match d.stat path with
    | .ok stat =>
        if stat.isDirectory then
          return ofTrace ((← queryOf d s path).run d)
        else return ⟨[⟨path, stat.mtime, false⟩], none⟩
    | .error _ => throw (.noRoot root)

/- A file that stands alone, if it exists. -/
def ofFile (d : Disk) (s : Settings) (file : String) : Sources :=
  .ofExcept do
    let path ← s.resolvePath d file
    match d.stat path with
    | .ok stat =>
        if stat.isDirectory then return {}
        else return ⟨[⟨path, stat.mtime, true⟩], none⟩
    | .error _ => return {}

/- All sources that the settings ask for. -/
def ofSettings (d : Disk) (s : Settings) : Sources :=
  concat (s.roots.map (ofRoot d s)) ++
    concat (s.files.map (ofFile d s))

end Sources

end SymbolAtlas
