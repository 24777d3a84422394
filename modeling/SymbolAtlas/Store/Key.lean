import SymbolAtlas.Data.Json
import SymbolAtlas.Data.Md5
import SymbolAtlas.Index.Snapshot
import SymbolAtlas.Settings.Basic

/-
  Keys: one for each way to fill an index.

  The key is a digest of everything in the settings that decides
  what ends up in the index. Paths count as the real paths they
  stand for.

  Key definitions:
    * `Key.payload`
    * `Key.ofSettings`
-/

namespace SymbolAtlas

namespace Key

def textList (texts : List String) : Datum :=
  .list (texts.map .text)

/- The settings that a key depends on. -/
def payload (s : Settings) (d : Disk) : Except Error Datum := do
  let roots ← s.roots.mapM (s.resolvePath d)
  let exclude ← s.exclude.mapM (s.resolvePath d)
  let files ← s.files.mapM (s.resolvePath d)
  return .list [
    textList s.ignore, textList s.accept, textList roots,
    textList exclude, textList files, .text Snapshot.format]

/- The text of which a key is the digest. -/
def encoded (payload : Datum) : String :=
  String.ofList (Json.compact payload)

/- The key of some settings. -/
def ofSettings (s : Settings) (d : Disk) : Except Error String :=
  (payload s d).map fun datum => Md5.hex (encoded datum)

end Key

end SymbolAtlas
