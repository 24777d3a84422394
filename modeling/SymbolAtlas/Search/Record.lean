import SymbolAtlas.Disk.Locate
import SymbolAtlas.Path.Text

/-
  Records of directory entries.

  A record is taken when a directory is listed. Links are
  followed; a link to nowhere is neither file nor directory,
  and entries whose link cannot be followed are left out.

  Key definitions:
    * `EntryKind`, `Record`
    * `Record.ofListed?`, `Record.ofDirectory`
    * `Record.SortKey`
-/

------------------------------------------------------------
-- Records
------------------------------------------------------------

namespace SymbolAtlas

/- What an entry is, links being followed. -/
inductive EntryKind where
  | file
  | dir
  | other
deriving DecidableEq, Repr

/-
  An entry: its path from the working directory, its path from
  the directory where the search began, its kind and time.
-/
structure Record where
  path : String
  relative : String
  kind : EntryKind
  mtime : Int
deriving DecidableEq, Repr

namespace Record

def name (r : Record) : String :=
  Path.baseName r.relative

def isDirectory (r : Record) : Bool :=
  r.kind == .dir

def isFile (r : Record) : Bool :=
  r.kind == .file

end Record

end SymbolAtlas

------------------------------------------------------------
-- Listing
------------------------------------------------------------

namespace SymbolAtlas

namespace Record

/- A path without a single dot and separator in front. -/
def withoutDot (path : String) : String :=
  match path.toList with
  | '.' :: c :: rest =>
      if Path.isSeparator c then String.ofList rest else path
  | _ => path

/- The path of an entry as it is reached from a directory. -/
def pathOf (directory name : String) : String :=
  let path := Path.child directory name
  if Path.isAbsolute directory then path else withoutDot path

/- The path of an entry below the base of the search. -/
def relativeOf (above name : String) : String :=
  if above.isEmpty then name else above ++ "/" ++ name

/- The record of an entry, unless it cannot be examined. -/
def ofListed? (d : Disk) (directory above name : String) :
    Option Record :=
  let path := pathOf directory name
  let relative := relativeOf above name
  match d.stat (Path.child directory name) with
  | .ok s =>
      some ⟨path, relative,
        if s.isDirectory then .dir else .file, s.mtime⟩
  | .error .noEntry => some ⟨path, relative, .other, 0⟩
  | .error _ => none

/- The records of a directory, in the order of the listing. -/
def ofDirectory (d : Disk) (directory above : String) :
    Except Fault (List Record) :=
  (d.list directory).map
    (·.filterMap (ofListed? d directory above))

/- The record of a path that was given by itself. -/
def ofPath (d : Disk) (path : String) : Record :=
  let name :=
    Path.baseName (Path.dropTrailingSeparators path)
  match d.stat path with
  | .ok s =>
      ⟨path, name, if s.isDirectory then .dir else .file, s.mtime⟩
  | .error _ => ⟨path, name, .other, 0⟩

end Record

end SymbolAtlas

------------------------------------------------------------
-- Orders
------------------------------------------------------------

namespace SymbolAtlas

namespace Record

/- What records can be sorted by. -/
inductive SortKey where
  | name
  | relative
  | path
  | oldest
  | newest
  | kind
  | nameLength
deriving DecidableEq, Repr

/- Kinds are ordered by their names. -/
def kindText : EntryKind → String
| .dir => "dir"
| .file => "file"
| .other => "other"

/- The first record may stand before the second. -/
def SortKey.le (key : SortKey) (a b : Record) : Bool :=
  match key with
  | .name => decide (a.name ≤ b.name)
  | .relative => decide (a.relative ≤ b.relative)
  | .path => decide (a.path ≤ b.path)
  | .oldest => decide (a.mtime ≤ b.mtime)
  | .newest => decide (b.mtime ≤ a.mtime)
  | .kind => decide (kindText a.kind ≤ kindText b.kind)
  | .nameLength => decide (a.name.length ≤ b.name.length)

end Record

end SymbolAtlas
