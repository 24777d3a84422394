import SymbolAtlas.Proofs.Disk.Directories
import SymbolAtlas.Proofs.Index.Tallies
import SymbolAtlas.Proofs.Store.Artifacts
import SymbolAtlas.Proofs.Store.Encoding

/-
  Directories that only stores write to.

  Such a directory holds empty files, which are locks, and the
  artifacts of snapshots. If all the snapshots that are written
  are in order, all that are read are. The disk refuses no step of
  a save or of a load there, and none brings anything else into
  the directory.

  Key definitions:
    * `Store.IsOwnFile`, `Store.Serves`
  Key theorems:
    * `Store.Serves.write_eq`, `Store.Serves.keeps_save`
    * `Store.Serves.yields_read`, `Store.Serves.yields_seek`
-/

------------------------------------------------------------
-- Files of Stores
------------------------------------------------------------

namespace SymbolAtlas

namespace Snapshot

/- What is in order stays so when it is read back. -/
theorem InOrder.of_sameMaps
    {k l : Snapshot}
    (hOrder : k.InOrder)
    (hSame : l.SameMaps k) :
    l.InOrder where
  oneTime symbol other file mtime time hSymbol hOther := by
    rw [hSame.symbols] at hSymbol hOther
    exact hOrder.oneTime symbol other file mtime time hSymbol
      hOther
  apart file mtime symbol hEmpty := by
    rw [hSame.emptyFiles] at hEmpty
    rintro ⟨time, hSymbol⟩
    rw [hSame.symbols] at hSymbol
    exact hOrder.apart file mtime symbol hEmpty ⟨time, hSymbol⟩
  disjoint name entry hEntry := by
    rw [hSame.symbols] at hEntry
    rw [hSame.missing]
    exact hOrder.disjoint name entry hEntry
  counted name misses hMisses := by
    rw [hSame.missing] at hMisses
    exact hOrder.counted name misses hMisses

end Snapshot

namespace Store

/- A lock, or the artifact of a snapshot in order. -/
def IsOwnFile (name : String) (node : Node) : Prop :=
  (∃ key mtime,
    name = key ++ ".json.lock" ∧ node = .file .empty mtime) ∨
  ∃ (k : Snapshot) (mtime : Int),
    k.InOrder ∧ node = .file k.artifact.toUTF8 mtime

/-
  The path leads to the directory at a place, and stores alone
  have put files there.
-/
structure Serves
    (d : Disk)
    (path : String)
    (place : Place) : Prop where
  directory : d.HasDirectory path place
  files :
    ∀ name node,
      d.node? (place ++ [name]) = some node → IsOwnFile name node

variable {s : Store} {d e : Disk} {path : String} {place : Place}

theorem IsOwnFile.exists_file
    {name : String}
    {node : Node}
    (hOwn : IsOwnFile name node) :
    ∃ content mtime, node = .file content mtime := by
  rcases hOwn with ⟨_, mtime, -, rfl⟩ | ⟨k, mtime, -, rfl⟩
  · exact ⟨_, mtime, rfl⟩
  · exact ⟨_, mtime, rfl⟩

/- The name of an artifact is not the name of a lock. -/
theorem artifact_ne_lock
    (key other : String) :
    key ++ ".json" ≠ other ++ ".json.lock" := by
  intro hSame
  have hChars := congrArg String.toList hSame
  rw [String.toList_append, String.toList_append] at hChars
  have hLast := congrArg List.getLast? hChars
  have hArtifact : ".json".toList.getLast? = some 'n' := by
    decide
  have hLock : ".json.lock".toList.getLast? = some 'k' := by
    decide
  rw [List.getLast?_append, List.getLast?_append, hArtifact,
    hLock] at hLast
  cases hLast

/- A search stops at every file of the directory. -/
theorem Serves.stops
    (hServes : Serves d path place)
    (name : String) :
    Disk.wayAt (d.node? (place ++ [name])) = .stops := by
  cases hNode : d.node? (place ++ [name]) with
  | none => rfl
  | some node =>
      rcases (hServes.files name node hNode).exists_file with
        ⟨content, mtime, rfl⟩
      rfl

theorem Serves.ne_link
    (hServes : Serves d path place)
    (name target : String) :
    d.node? (place ++ [name]) ≠ some (.link target) := by
  intro hNode
  have hStops := hServes.stops name
  rw [hNode] at hStops
  cases hStops

theorem Serves.of_sameWays
    (hServes : Serves d path place)
    (hSame : d.SameWays e)
    (hFiles :
      ∀ name node,
        e.node? (place ++ [name]) = some node →
        d.node? (place ++ [name]) = some node ∨
          IsOwnFile name node) :
    Serves e path place where
  directory := hServes.directory.of_sameWays hSame
  files name node hNode := by
    rcases hFiles name node hNode with hOld | hOwn
    · exact hServes.files name node hOld
    · exact hOwn

/- A store finds its files in the directory. -/
theorem Serves.locate_fileIn
    (hServes : Serves d s.directory place)
    (hKey : '/' ∉ s.key.toList)
    {suffix : String}
    (hSuffix : IsSuffix suffix)
    (followLast : Bool) :
    d.locate followLast (s.fileIn suffix) =
      .ok ⟨place ++ [s.key ++ suffix],
        d.node? (place ++ [s.key ++ suffix])⟩ := by
  have hHome : s.home d = .ok place := hServes.directory.reached
  rw [Store.locate_fileIn hKey hSuffix, hHome]
  · rfl
  · intro _ other target hOther
    rw [hHome] at hOther
    cases hOther
    exact hServes.ne_link _ target

end Store

end SymbolAtlas

------------------------------------------------------------
-- Changes
------------------------------------------------------------

namespace SymbolAtlas

namespace Store

variable {s : Store} {d : Disk} {path : String} {place : Place}

/- A file of the store's own may be put into the directory. -/
theorem Serves.put
    (hServes : Serves d path place)
    {name : String}
    {content : ByteArray}
    {mtime : Int}
    (hOwn : IsOwnFile name (.file content mtime)) :
    Serves (d.put (place ++ [name]) (.file content mtime)) path
      place := by
  have hStops := hServes.stops name
  apply hServes.of_sameWays (Disk.sameWays_put hStops _ _)
  intro other node hNode
  rw [Disk.node?_put (Disk.ne_nil_of_stops hStops)] at hNode
  split at hNode
  · next hSame =>
      cases hNode
      right
      rw [List.append_cancel_left_eq, List.cons.injEq] at hSame
      rw [hSame.1]
      exact hOwn
  · exact Or.inl hNode

/- What was written is put in the place of the artifact. -/
theorem Serves.moveTree
    (hServes : Serves d path place)
    (s : Store)
    {k : Snapshot}
    {mtime : Int}
    (hOrder : k.InOrder)
    (hTemp :
      d.node? (place ++ [s.key ++ ".json.tmp"]) =
        some (.file k.artifact.toUTF8 mtime)) :
    Serves
      (d.moveTree (place ++ [s.key ++ ".json.tmp"])
        (place ++ [s.key ++ ".json"])) path place := by
  have hApart := temp_apart s place
  apply hServes.of_sameWays
    (Disk.sameWays_moveTree hApart (hServes.stops _)
      (hServes.stops _))
  intro name node hNode
  by_cases hSource :
      place ++ [name] = place ++ [s.key ++ ".json.tmp"]
  · rw [hSource, Disk.node?_moveTree_source hApart] at hNode
    cases hNode
  · by_cases hTarget :
        place ++ [name] = place ++ [s.key ++ ".json"]
    · rw [hTarget, Disk.node?_moveTree_target hApart,
        hTemp] at hNode
      cases hNode
      exact Or.inr (Or.inr ⟨k, mtime, hOrder, rfl⟩)
    · left
      have hBeside :
          ∀ other, place ++ [name] ≠ place ++ [other] →
            ¬ place ++ [other] <+: place ++ [name] := by
        intro other hNe hPrefix
        exact hNe (hPrefix.eq_of_length (by simp)).symm
      rw [Disk.node?_moveTree_of_apart (hBeside _ hSource)
        (hBeside _ hTarget)] at hNode
      exact hNode

variable (hKey : '/' ∉ s.key.toList)

include hKey

/- The lock of a store can be opened. -/
theorem Serves.openAppending_eq
    (hServes : Serves d s.directory place)
    (mtime : Int) :
    ∃ after,
      d.openAppending s.lockPath mtime = .ok after ∧
      Serves after s.directory place := by
  have hLocate :=
    hServes.locate_fileIn hKey
      (show IsSuffix ".json.lock" by decide) true
  unfold Disk.openAppending lockPath
  rw [hLocate]
  cases hNode : d.node? (place ++ [s.key ++ ".json.lock"]) with
  | none =>
      exact ⟨_, rfl, hServes.put (Or.inl ⟨s.key, mtime, rfl, rfl⟩)⟩
  | some node =>
      rcases (hServes.files _ node hNode).exists_file with
        ⟨content, time, rfl⟩
      exact ⟨d, rfl, hServes⟩

/- What was written can be put in the place of the artifact. -/
theorem Serves.rename_eq
    (hServes : Serves d s.directory place)
    {content : ByteArray}
    {mtime : Int}
    (hTemp :
      d.node? (place ++ [s.key ++ ".json.tmp"]) =
        some (.file content mtime)) :
    d.rename s.tempPath s.path =
      .ok (d.moveTree (place ++ [s.key ++ ".json.tmp"])
        (place ++ [s.key ++ ".json"])) := by
  have hSource :=
    hServes.locate_fileIn hKey
      (show IsSuffix ".json.tmp" by decide) false
  have hTarget :=
    hServes.locate_fileIn hKey
      (show IsSuffix ".json" by decide) false
  unfold Disk.rename tempPath path
  rw [hSource, hTarget, hTemp]
  cases hNode : d.node? (place ++ [s.key ++ ".json"]) with
  | none =>
      dsimp only
      rw [if_neg (artifact_ne_temp s place).symm]
  | some node =>
      rcases (hServes.files _ node hNode).exists_file with
        ⟨old, time, rfl⟩
      dsimp only
      rw [if_neg (artifact_ne_temp s place).symm]

/- An artifact can be replaced. -/
theorem Serves.replace_eq
    (hServes : Serves d s.directory place)
    {k : Snapshot}
    (hOrder : k.InOrder) :
    ∃ after,
      s.replace k.artifact.toUTF8 d = (after, none) ∧
      Serves after s.directory place := by
  have hStops := hServes.stops (s.key ++ ".json.tmp")
  have hOwn :
      IsOwnFile (s.key ++ ".json.tmp")
        (.file k.artifact.toUTF8 Desk.ownTime) :=
    Or.inr ⟨k, Desk.ownTime, hOrder, rfl⟩
  have hWrite :
      d.write s.tempPath k.artifact.toUTF8 Desk.ownTime =
        .ok (d.put (place ++ [s.key ++ ".json.tmp"])
          (.file k.artifact.toUTF8 Desk.ownTime)) := by
    unfold Disk.write tempPath
    rw [hServes.locate_fileIn hKey
      (show IsSuffix ".json.tmp" by decide)]
    dsimp only
    split
    · next mtime hDir =>
        rw [hDir] at hStops
        cases hStops
    · rfl
  have hWritten := hServes.put hOwn
  have hTemp :
      (d.put (place ++ [s.key ++ ".json.tmp"])
        (.file k.artifact.toUTF8 Desk.ownTime)).node?
          (place ++ [s.key ++ ".json.tmp"]) =
        some (.file k.artifact.toUTF8 Desk.ownTime) := by
    rw [Disk.node?_put (Disk.ne_nil_of_stops hStops), if_pos rfl]
  refine ⟨_, ?_, hWritten.moveTree s hOrder hTemp⟩
  unfold replace
  rw [hWrite]
  dsimp only
  rw [hWritten.rename_eq hKey hTemp]

end Store

end SymbolAtlas

------------------------------------------------------------
-- Saves and Loads
------------------------------------------------------------

namespace SymbolAtlas

namespace Store

variable {s : Store} {place : Place}

/- The directory of the store serves it. -/
def ServesAt (s : Store) (place : Place) (desk : Desk) : Prop :=
  Serves desk.disk s.directory place

theorem keeps_tell
    (notice : Notice) :
    Work.Keeps (s.ServesAt place) (Desk.tell notice) := by
  refine Work.Keeps.bind ?_ fun _ => fun _ hServes => hServes
  unfold Desk.liftError
  cases notice.check with
  | ok value => exact Work.keeps_pure value
  | error error => exact Work.keeps_throw error

theorem keeps_debug
    (notice : Notice) :
    Work.Keeps (s.ServesAt place) (s.debug notice) := by
  unfold debug
  split
  · exact keeps_tell notice
  · exact Work.keeps_pure ()

variable (hKey : '/' ∉ s.key.toList)

include hKey

/- A lock is opened, and it stays the same lock. -/
theorem yields_acquire
    {lock : Lock}
    (hPath : lock.path = s.lockPath)
    (mode : LockMode) :
    Work.Yields (s.ServesAt place)
      (fun lock => lock.path = s.lockPath)
      (lock.acquire mode Others.absent) := by
  have hOpened :
      Work.Yields (s.ServesAt place)
        (fun lock => lock.path = s.lockPath) lock.opened := by
    unfold Lock.opened
    split
    · exact Work.yields_pure hPath
    · refine Work.Keeps.yields ?_ |>.bind fun _ _ =>
        Work.yields_pure hPath
      intro desk hServes
      rcases Serves.openAppending_eq hKey hServes Desk.ownTime with
        ⟨after, hOpen, hAfter⟩
      rw [Desk.attempt_eq, hPath, hOpen]
      exact hAfter
  refine hOpened.bind fun opened hSame => ?_
  refine Work.Keeps.yields (fun _ hServes => hServes) |>.bind
    fun _ _ => ?_
  exact Work.yields_pure hSame

theorem keeps_write
    {k : Snapshot}
    (hOrder : k.InOrder) :
    Work.Keeps (s.ServesAt place) (s.write k) := by
  intro desk hServes
  rcases Serves.replace_eq hKey hServes hOrder with
    ⟨after, hReplace, hAfter⟩
  rw [write_eq]
  split
  · rw [hReplace]
    exact hAfter
  · exact hServes

theorem keeps_save
    {k : Snapshot}
    (hOrder : k.InOrder) :
    Work.Keeps (s.ServesAt place) (s.save k) := by
  unfold save
  exact (yields_acquire hKey (path_ownLock s) .exclusive).keeps.bind
    fun _ => keeps_write hKey hOrder

theorem keeps_saveWith
    {k : Snapshot}
    (hOrder : k.InOrder)
    (lock : Lock) :
    Work.Keeps (s.ServesAt place) (s.saveWith lock k) := by
  unfold saveWith
  split
  · exact keeps_write hKey hOrder
  · exact keeps_save hKey hOrder

/- An artifact that is read holds a snapshot in order. -/
theorem Serves.inOrder_of_read
    {d : Disk}
    (hServes : Serves d s.directory place)
    {content : ByteArray}
    (hRead : d.read s.path = .ok content) :
    ∃ k : Snapshot,
      k.InOrder ∧ content = k.artifact.toUTF8 := by
  unfold Disk.read path at hRead
  rw [hServes.locate_fileIn hKey
    (show IsSuffix ".json" by decide)] at hRead
  dsimp only at hRead
  split at hRead
  · next other mtime hNode =>
      cases hRead
      rcases hServes.files _ _ hNode with
        ⟨key, _, hName, -⟩ | ⟨k, _, hOrder, hFile⟩
      · exact absurd hName (artifact_ne_lock s.key key)
      · cases hFile
        exact ⟨k, hOrder, rfl⟩
  · cases hRead
  · cases hRead

theorem yields_read :
    Work.Yields (s.ServesAt place)
      (fun found => ∀ k, found = some k → k.InOrder) s.read := by
  have hDiscard (reason : String) :
      Work.Yields (s.ServesAt place)
        (fun found => ∀ k, found = some k → k.InOrder)
        (s.discard reason) := by
    refine (keeps_debug _).yields.bind fun _ _ => ?_
    exact Work.yields_pure fun k hNone => by cases hNone
  refine Work.yields_get.bind fun desk hServes => ?_
  cases hRead : desk.disk.read s.path with
  | error fault =>
      split
      · exact Work.yields_pure fun k hNone => by cases hNone
      · exact hDiscard _
      · next content hOk => cases hOk
  | ok content =>
      dsimp only
      rcases Serves.inOrder_of_read hKey hServes hRead with
        ⟨written, hOrder, rfl⟩
      split
      · next found hFound =>
          refine Work.yields_pure ?_
          rintro k ⟨⟩
          exact hOrder.of_sameMaps
            (Snapshot.sameMaps_of_artifact hFound)
      · exact Work.yields_throw _
      · exact Work.yields_throw _
      · exact hDiscard _

/- What a store has is in order. -/
theorem yields_seek :
    Work.Yields (s.ServesAt place)
      (fun found => ∀ k, found = .inl k → k.InOrder)
      (s.seek Others.absent) := by
  have hFound :
      ∀ found : Option Snapshot,
        (∀ k, found = some k → k.InOrder) →
        ∀ k, found = some k →
          Work.Yields (s.ServesAt place)
            (fun found => ∀ k, found = .inl k → k.InOrder)
            (pure (.inl k) :
              Desk.Work (Snapshot ⊕ Lock)) := by
    rintro found hOrder k rfl
    refine Work.yields_pure ?_
    rintro other ⟨⟩
    exact hOrder k rfl
  unfold seek
  refine (yields_read hKey).bind fun first hFirst => ?_
  cases first with
  | some k =>
      refine (keeps_debug _).yields.bind fun _ _ => ?_
      exact hFound _ hFirst k rfl
  | none =>
      refine (keeps_debug _).yields.bind fun _ _ => ?_
      refine (yields_acquire hKey (path_ownLock s) .shared).bind
        fun lock hLock => ?_
      refine (yields_read hKey).bind fun second hSecond => ?_
      cases second with
      | some k => exact hFound _ hSecond k rfl
      | none =>
          have hReleased : lock.release.path = s.lockPath := hLock
          refine (yields_acquire hKey hReleased .exclusive).bind
            fun lock _ => ?_
          refine (yields_read hKey).bind fun third hThird => ?_
          cases third with
          | some k => exact hFound _ hThird k rfl
          | none =>
              refine (keeps_debug _).yields.bind fun _ _ => ?_
              exact Work.yields_pure fun k hLock => by cases hLock

end Store

end SymbolAtlas
