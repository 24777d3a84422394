import SymbolAtlas.Disk.Locate
import SymbolAtlas.Notice
import SymbolAtlas.Source.Text

/-
  Scanning a source file on a disk.

  A file that cannot be read or is malformed is an error when
  scanning is strict, and otherwise declares nothing. A file
  that stands alone also declares its own name.

  Key definitions:
    * `Scan`, `Scan.read`
    * `Scan.run`
-/

------------------------------------------------------------
-- Scans
------------------------------------------------------------

namespace SymbolAtlas

/- A file to scan, and whether it stands alone. -/
structure Scan where
  path : String
  alone : Bool
deriving DecidableEq, Repr

/- The symbols of a file and what was told about it. -/
structure Scan.Result where
  symbols : List String
  notices : List Notice := []
deriving DecidableEq, Repr

namespace Scan

def ofPath (path : String) (alone : Bool) : Scan :=
  ⟨Path.normal path, alone⟩

/- The symbols in the text of the file. -/
def read (s : Scan) (d : Disk) : Except Error (List String) :=
  match d.read s.path with
  | .ok content => SourceText.symbols content (some s.path)
  | .error fault =>
      .error (.unreadableSource s.path ⟨fault, s.path, none⟩)

/- A file that stands alone is also known by its stem. -/
def withStem (s : Scan) (symbols : List String) : List String :=
  let stem := (Route.ofText s.path).stem
  if s.alone && !symbols.contains stem then symbols ++ [stem]
  else symbols

/- Scan a file. -/
def run (s : Scan) (d : Disk) (strict : Bool) :
    Except Error Result :=
  match s.read d with
  | .ok symbols => .ok ⟨s.withStem symbols, []⟩
  | .error error =>
      if strict then .error error
      else do
        let notice := Notice.skipped s.path error.message
        notice.check
        return ⟨s.withStem [], [notice]⟩

end Scan

end SymbolAtlas
