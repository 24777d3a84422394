import SymbolAtlas.Data.Datum
import SymbolAtlas.Error

/-
  Snapshots: what an index knows, and its form as data.

  A snapshot maps symbols to the files that declare them, names
  to the times they were missed in a row, and files that declare
  nothing to the times they were read at.

  Key definitions:
    * `Entry`, `Snapshot`
    * `Snapshot.toDatum`, `Snapshot.ofDatum`
-/

------------------------------------------------------------
-- Snapshots
------------------------------------------------------------

namespace SymbolAtlas

/- The file that declares a symbol and its time when read. -/
structure Entry where
  file : String
  mtime : Int
deriving DecidableEq, Repr

structure Snapshot where
  symbols : Keyed Entry := .empty
  missing : Keyed Int := .empty
  emptyFiles : Keyed Int := .empty
deriving DecidableEq, Repr

namespace Snapshot

def empty : Snapshot :=
  {}

instance : Inhabited Snapshot :=
  ⟨empty⟩

/- The version of the form that snapshots have as data. -/
def format : String := "v2"

end Snapshot

end SymbolAtlas

------------------------------------------------------------
-- Writing
------------------------------------------------------------

namespace SymbolAtlas

namespace Snapshot

def entryDatum (e : Entry) : Datum :=
  .list [.text e.file, .int e.mtime]

def recordOf {α : Type} (f : α → Datum) (m : Keyed α) : Datum :=
  .record (m.entries.map fun (key, value) => (key, f value))

/- The form of a snapshot as data. -/
def toDatum (s : Snapshot) : Datum :=
  .record [
    ("format", .text format),
    ("symbols", recordOf entryDatum s.symbols),
    ("missing", recordOf .int s.missing),
    ("empty_files", recordOf .int s.emptyFiles)]

end Snapshot

end SymbolAtlas

------------------------------------------------------------
-- Reading
------------------------------------------------------------

namespace SymbolAtlas

namespace Snapshot

/- The whole number of a datum; fractions are cut off. -/
def intOf : Datum → Except Error Int
| .bool b => .ok (if b then 1 else 0)
| .int n => .ok n
| .real (.infinite _) => .error .infiniteNumber
| .real x =>
    match x.truncated with
    | some n => .ok n
    | none => .error .malformedSnapshot
| .text s =>
    match Datum.intOfText? s with
    | some n => .ok n
    | none => .error (.notWhole s)
| _ => .error .malformedSnapshot

/-
  The two parts of a datum that has two: the items of a list,
  the characters of a text, or the keys of a record.
-/
def twoParts : Datum → Except Error (Datum × Datum)
| .list [a, b] => .ok (a, b)
| .record [(a, _), (b, _)] => .ok (.text a, .text b)
| .text s =>
    match s.toList with
    | [a, b] =>
        .ok (.text (String.singleton a), .text (String.singleton b))
    | _ => .error .malformedSnapshot
| _ => .error .malformedSnapshot

/-
  The name of a file. There is always room to show it, but a
  number in it may be too long.
-/
def fileOf (datum : Datum) : Except Error String :=
  match Datum.showing datum.levels datum datum.asText with
  | .ok file => .ok file
  | .error _ => .error .malformedSnapshot

def entryOf (datum : Datum) : Except Error Entry := do
  let (file, mtime) ← twoParts datum
  return ⟨← fileOf file, ← intOf mtime⟩

/- Read the values of a field that must be a record. -/
def fieldOf
    {α : Type}
    (f : Datum → Except Error α)
    (datum : Datum)
    (key : String) : Except Error (Keyed α) :=
  match datum.field? key with
  | some (.record fields) =>
      (fields.mapM fun field =>
        (f field.2).map (field.1, ·)).map Keyed.ofList
  | _ => .error .malformedSnapshot

/- The format that a datum says it has. -/
def hasFormat (datum : Datum) : Bool :=
  match datum.field? "format" with
  | some (.text s) => s == format
  | _ => false

/-
  Read a snapshot from data. The parts are read in order, and
  the first trouble counts.
-/
def ofDatum (datum : Datum) : Except Error Snapshot := do
  if !hasFormat datum then throw .notSnapshot
  let symbols ← fieldOf entryOf datum "symbols"
  let missing ← fieldOf intOf datum "missing"
  let emptyFiles ← fieldOf intOf datum "empty_files"
  return ⟨symbols, missing, emptyFiles⟩

end Snapshot

end SymbolAtlas
