import SymbolAtlas.Data.Json
import SymbolAtlas.Index.Snapshot
import SymbolAtlas.Store.Lock

/-
  Stores: snapshots that outlive a process.

  A store keeps one artifact in a directory. The artifact is
  replaced as a whole, so it can be read without a lock. What
  is missing is built by one process while others wait.

  Key definitions:
    * `Store`, `Store.path`, `Store.lockPath`, `Store.tempPath`
    * `Store.read`, `Store.save`, `Store.load`
-/

------------------------------------------------------------
-- Artifacts
------------------------------------------------------------

namespace SymbolAtlas

namespace Snapshot

def sortedRecord {α : Type} (f : α → Datum) (m : Keyed α) :
    Datum :=
  .record (m.sorted.map fun (key, value) => (key, f value))

/- The form of a snapshot as data, all keys in order. -/
def toSortedDatum (s : Snapshot) : Datum :=
  .record [
    ("empty_files", sortedRecord .int s.emptyFiles),
    ("format", .text format),
    ("missing", sortedRecord .int s.missing),
    ("symbols", sortedRecord entryDatum s.symbols)]

/- The text of the artifact that holds a snapshot. -/
def artifact (s : Snapshot) : String :=
  Json.indented s.toSortedDatum ++ "\n"

/- Every number of a snapshot can be written. -/
def isWritable (s : Snapshot) : Bool :=
  s.symbols.entries.all (fun (_, e) => Datum.isShort e.mtime) &&
    s.missing.entries.all (fun (_, n) => Datum.isShort n) &&
    s.emptyFiles.entries.all (fun (_, n) => Datum.isShort n)

/-
  The data in an artifact. A snapshot has three levels of
  brackets, and there is room for some more.
-/
def dataIn (content : ByteArray) (room : Nat) :
    Except Error Datum :=
  match String.fromUTF8? content with
  | none => .error .malformedSnapshot
  | some text =>
      match Json.parse (room + 3) text with
      | .ok datum => .ok datum
      | .error .malformed => .error .malformedSnapshot
      | .error .tooDeep => .error .tooDeep

/- The snapshot that an artifact holds. -/
def ofArtifact
    (content : ByteArray)
    (room : Nat := Datum.usualRoom) : Except Error Snapshot :=
  (dataIn content room).bind ofDatum

end Snapshot

end SymbolAtlas

------------------------------------------------------------
-- Stores
------------------------------------------------------------

namespace SymbolAtlas

/-
  A directory, the key of the artifact in it, and whether
  everything is told. An artifact is read as deep as there is
  room for brackets beyond those of a snapshot.
-/
structure Store where
  directory : String
  key : String
  isDebug : Bool := false
  room : Nat := Datum.usualRoom
deriving DecidableEq, Repr

namespace Store

def fileIn (s : Store) (suffix : String) : String :=
  (Route.ofText s.directory ++ Route.ofText (s.key ++ suffix)).text

/- The artifact. -/
def path (s : Store) : String :=
  s.fileIn ".json"

/- The file of the lock for those who build. -/
def lockPath (s : Store) : String :=
  s.fileIn ".json.lock"

/- What becomes the artifact when it is complete. -/
def tempPath (s : Store) : String :=
  s.fileIn ".json.tmp"

def debug (s : Store) (notice : Notice) : Desk.Work Unit :=
  if s.isDebug then Desk.tell notice else pure ()

end Store

end SymbolAtlas

------------------------------------------------------------
-- Reading and Writing
------------------------------------------------------------

namespace SymbolAtlas

namespace Store

/- An artifact that cannot be used is as good as none. -/
def discard (s : Store) (reason : String) :
    Desk.Work (Option Snapshot) := do
  s.debug (.unusable s.path reason)
  return none

/- The snapshot in the artifact, if there is one. -/
def read (s : Store) : Desk.Work (Option Snapshot) := do
  match (← get).disk.read s.path with
  | .error .noEntry => return none
  | .error fault =>
      s.discard (DiskFailure.mk fault s.path none).message
  | .ok content =>
      match Snapshot.ofArtifact content s.room with
      | .ok snapshot => return some snapshot
      | .error .infiniteNumber => throw .infiniteNumber
      | .error .tooDeep => throw .tooDeep
      | .error error => s.discard error.reason

/- Replace the artifact, or say why that cannot be done. -/
def replace (s : Store) (content : ByteArray) (d : Disk) :
    Disk × Option DiskFailure :=
  match d.write s.tempPath content Desk.ownTime with
  | .error fault => (d, some ⟨fault, s.tempPath, none⟩)
  | .ok written =>
      match written.rename s.tempPath s.path with
      | .error fault =>
          (written, some ⟨fault, s.tempPath, some s.path⟩)
      | .ok renamed => (renamed, none)

/- Write a snapshot. A failure leaves no half-made file. -/
def write (s : Store) (snapshot : Snapshot) : Desk.Work Unit :=
  if snapshot.isWritable then do
    let content := snapshot.artifact.toUTF8
    match s.replace content (← get).disk with
    | (disk, none) => Desk.change fun _ => disk
    | (disk, some failure) =>
        let cleared := (disk.unlink s.tempPath).toOption
        Desk.change fun _ => cleared.getD disk
        throw (.artifactNotWritten s.path failure)
  else throw .longNumber

/- Save a snapshot under the store's own lock. -/
def save (s : Store) (snapshot : Snapshot) : Desk.Work Unit := do
  let _ ← Lock.acquire ⟨s.lockPath, false, none⟩ .exclusive
    Others.absent
  s.write snapshot

/- Save a snapshot, under a lock if it is held alone. -/
def saveWith (s : Store) (lock : Lock) (snapshot : Snapshot) :
    Desk.Work Unit :=
  if lock.mode = some .exclusive then s.write snapshot
  else s.save snapshot

end Store

end SymbolAtlas

------------------------------------------------------------
-- Loading
------------------------------------------------------------

namespace SymbolAtlas

namespace Store

/-
  Look for the artifact: at once, then under a shared lock in
  case somebody is just replacing it, then under an exclusive
  one in case somebody has built it meanwhile. If there is none
  the result is the lock to build under.
-/
def seek (s : Store) (others : Others) :
    Desk.Work (Snapshot ⊕ Lock) := do
  if let some snapshot ← s.read then
    s.debug (.cacheHit s.path)
    return .inl snapshot
  s.debug (.waiting s.lockPath)
  let lock ← Lock.acquire ⟨s.lockPath, false, none⟩ .shared others
  if let some snapshot ← s.read then return .inl snapshot
  let lock ← lock.release.acquire .exclusive others
  if let some snapshot ← s.read then return .inl snapshot
  s.debug (.building s.path)
  return .inr lock

/-
  The snapshot in the artifact, or the one that is built and
  saved now. Building is work on more than a disk, and `onDesk`
  says how the work on the disk is part of it.
-/
def load
    {σ : Type}
    (s : Store)
    (others : Others)
    (onDesk : {α : Type} → Desk.Work α → EStateM Error σ α)
    (build : EStateM Error σ Snapshot) :
    EStateM Error σ Snapshot := do
  match ← onDesk (s.seek others) with
  | .inl snapshot => return snapshot
  | .inr lock =>
      let snapshot ← build
      onDesk (s.saveWith lock snapshot)
      return snapshot

end Store

end SymbolAtlas
