import SymbolAtlas.Proofs.Store.Room

/-
  Saves are atomic.

  A save replaces the artifact as a whole or leaves it as it was,
  and changes nothing but the three files of the store. What was
  written beside the artifact is cleared away if it cannot take
  its place. Without the lock nothing is touched, not even what
  somebody else has left there.

  Key definitions:
    * `Disk.SameBut`
    * `Store.IsUsable`
    * `Store.Replaced`, `Store.Kept`, `Store.Failed`
  Key theorems:
    * `Store.Clear.write_outcome`
    * `Store.save_is_atomic`
-/

------------------------------------------------------------
-- Changes at Some Places
------------------------------------------------------------

namespace SymbolAtlas

namespace Disk

/- What a path leads to. A link at its end is not followed. -/
def standing (d : Disk) (path : String) :
    Except Fault (Option Node) :=
  (d.locate false path).map Found.node

/- The disks are the same but at some places. -/
structure SameBut
    (d e : Disk)
    (changed : Place → Prop) : Prop where
  nodes : ∀ place, ¬ changed place → e.node? place = d.node? place
  rest : e = { d with nodes := e.nodes }

variable {d e f : Disk} {changed others : Place → Prop}

theorem SameBut.refl
    (d : Disk)
    (changed : Place → Prop) :
    d.SameBut d changed :=
  ⟨fun _ _ => rfl, rfl⟩

theorem SameBut.trans
    (hFirst : d.SameBut e changed)
    (hSecond : e.SameBut f changed) :
    d.SameBut f changed where
  nodes place hPlace :=
    (hSecond.nodes place hPlace).trans (hFirst.nodes place hPlace)
  rest := by
    rw [hSecond.rest, hFirst.rest]

theorem SameBut.mono
    (hSame : d.SameBut e changed)
    (hMore : ∀ place, changed place → others place) :
    d.SameBut e others :=
  ⟨fun place hPlace =>
    hSame.nodes place fun hOld => hPlace (hMore place hOld),
    hSame.rest⟩

/- No way changes if none does at the places that change. -/
theorem SameBut.sameWays
    (hSame : d.SameBut e changed)
    (hWays :
      ∀ place, changed place →
        wayAt (e.node? place) = wayAt (d.node? place)) :
    d.SameWays e where
  cwd := by
    rw [hSame.rest]
  ways place name _ := by
    by_cases hChanged : changed (place ++ [name])
    · exact hWays _ hChanged
    · rw [hSame.nodes _ hChanged]

variable {place source target : Place}

theorem sameBut_put
    (hPlace : place ≠ [])
    (node : Node) :
    d.SameBut (d.put place node) (· = place) where
  nodes other hOther := by
    rw [node?_put hPlace, if_neg hOther]
  rest := rfl

theorem sameBut_drop
    (hPlace : place ≠ []) :
    d.SameBut (d.drop place) (· = place) where
  nodes other hOther := by
    rw [node?_drop hPlace, if_neg hOther]
  rest := rfl

/- A file has nothing below it that moves with it. -/
theorem sameBut_moveTree
    (hTree : d.IsTree)
    (hApart : Apart source target)
    (hSource : wayAt (d.node? source) = .stops)
    (hTarget : wayAt (d.node? target) = .stops) :
    d.SameBut (d.moveTree source target)
      fun place => place = source ∨ place = target where
  nodes other hOther := by
    rcases not_or.mp hOther with ⟨hNotSource, hNotTarget⟩
    by_cases hBelow : source <+: other
    · rcases hBelow with ⟨rest, rfl⟩
      have hRest : rest ≠ [] := by
        rintro rfl
        exact hNotSource (List.append_nil _)
      rw [node?_moveTree_below_source hApart,
        hTree.below_of_stops hSource hRest]
    by_cases hUnder : target <+: other
    · rcases hUnder with ⟨rest, rfl⟩
      have hRest : rest ≠ [] := by
        rintro rfl
        exact hNotTarget (List.append_nil _)
      rw [node?_moveTree_below_target hApart,
        hTree.below_of_stops hSource hRest,
        hTree.below_of_stops hTarget hRest]
    exact node?_moveTree_of_apart hBelow hUnder
  rest := rfl

end Disk

end SymbolAtlas

------------------------------------------------------------
-- Single Steps and Their Faults
------------------------------------------------------------

namespace SymbolAtlas

namespace Store

variable {s : Store} {d e : Disk} {place : Place}
variable {content : ByteArray} {suffix : String} {mtime : Int}

/- Only a directory can be in the way of a file. -/
theorem Clear.dir_of_not_isFree
    (hClear : s.Clear d place)
    (hSuffix : suffix ∈ suffixes)
    (hTaken : ¬ s.IsFree d place suffix) :
    ∃ mtime,
      d.node? (place ++ [s.key ++ suffix]) =
        some (.dir mtime) := by
  unfold IsFree at hTaken
  cases hNode : d.node? (place ++ [s.key ++ suffix]) with
  | none =>
      rw [hNode] at hTaken
      exact absurd rfl hTaken
  | some node =>
      rw [hNode] at hTaken
      cases node with
      | file old time => exact absurd rfl hTaken
      | dir time => exact ⟨time, rfl⟩
      | link target =>
          exact absurd hNode (hClear.files suffix hSuffix target)

variable (hKey : '/' ∉ s.key.toList)

include hKey

/- Opening the lock changes nothing but its file. -/
theorem Clear.sameBut_openAppending
    (hClear : s.Clear d place)
    (hOpen : d.openAppending s.lockPath mtime = .ok e) :
    d.SameBut e (· = place ++ [s.key ++ ".json.lock"]) ∧
    ∃ content time,
      e.node? (place ++ [s.key ++ ".json.lock"]) =
        some (.file content time) := by
  unfold Disk.openAppending lockPath at hOpen
  rw [hClear.locate_fileIn hKey (by decide)] at hOpen
  cases hNode : d.node? (place ++ [s.key ++ ".json.lock"]) with
  | none =>
      rw [hNode] at hOpen
      cases hOpen
      refine ⟨Disk.sameBut_put (by simp) _, .empty, mtime, ?_⟩
      rw [Disk.node?_put (by simp), if_pos rfl]
  | some node =>
      rw [hNode] at hOpen
      cases node with
      | dir time => cases hOpen
      | file old time =>
          cases hOpen
          exact ⟨.refl d _, old, time, hNode⟩
      | link target =>
          exact absurd hNode
            (hClear.files ".json.lock" (by decide) target)

/- A directory at that place is in the way of a file. -/
theorem Clear.write_of_dir
    (hClear : s.Clear d place)
    (hDir :
      d.node? (place ++ [s.key ++ ".json.tmp"]) =
        some (.dir mtime))
    {time : Int} :
    d.write s.tempPath content time = .error .isDirectory := by
  unfold Disk.write tempPath
  rw [hClear.locate_fileIn hKey (by decide), hDir]

theorem Clear.rename_of_dir
    {time : Int}
    (hClear : s.Clear d place)
    (hTemp :
      d.node? (place ++ [s.key ++ ".json.tmp"]) =
        some (.file content mtime))
    (hDir :
      d.node? (place ++ [s.key ++ ".json"]) =
        some (.dir time)) :
    d.rename s.tempPath s.path = .error .isDirectory := by
  unfold Disk.rename tempPath path
  rw [hClear.locate_fileIn hKey (by decide),
    hClear.locate_fileIn hKey (by decide), hTemp, hDir]

theorem Clear.unlink_of_file
    (hClear : s.Clear d place)
    (hTemp :
      d.node? (place ++ [s.key ++ ".json.tmp"]) =
        some (.file content mtime)) :
    d.unlink s.tempPath =
      .ok (d.drop (place ++ [s.key ++ ".json.tmp"])) := by
  unfold Disk.unlink tempPath
  rw [hClear.locate_fileIn hKey (by decide), hTemp]

theorem Clear.unlink_of_dir
    (hClear : s.Clear d place)
    (hDir :
      d.node? (place ++ [s.key ++ ".json.tmp"]) =
        some (.dir mtime)) :
    d.unlink s.tempPath = .error .isDirectory := by
  unfold Disk.unlink tempPath
  rw [hClear.locate_fileIn hKey (by decide), hDir]

end Store

end SymbolAtlas

------------------------------------------------------------
-- What Writing Comes To
------------------------------------------------------------

namespace SymbolAtlas

namespace Store

/- The artifact has the content, and nothing is beside it. -/
structure Written
    (s : Store)
    (place : Place)
    (content : ByteArray)
    (d e : Disk) : Prop where
  artifact : s.HasArtifact e place content
  temp : e.node? (place ++ [s.key ++ ".json.tmp"]) = none
  ways : d.SameWays e
  others :
    d.SameBut e fun other =>
      other = place ++ [s.key ++ ".json.tmp"] ∨
        other = place ++ [s.key ++ ".json"]

/- Nothing is beside the artifact but a directory that was. -/
structure Cleared
    (s : Store)
    (place : Place)
    (d e : Disk) : Prop where
  temp :
    e.node? (place ++ [s.key ++ ".json.tmp"]) = none ∨
    ∃ mtime,
      d.node? (place ++ [s.key ++ ".json.tmp"]) =
        some (.dir mtime) ∧
      e.node? (place ++ [s.key ++ ".json.tmp"]) =
        some (.dir mtime)
  ways : d.SameWays e
  others : d.SameBut e (· = place ++ [s.key ++ ".json.tmp"])

variable {s : Store} {d e : Disk} {place : Place}
variable {content : ByteArray} {mtime : Int}

/- A file that can take the place of the artifact does so. -/
theorem Clear.written_of_move
    (hClear : s.Clear d place)
    (hTree : d.IsTree)
    (hTemp : s.IsFree d place ".json.tmp")
    (hPath : s.IsFree d place ".json")
    (hWritten :
      e = d.put (place ++ [s.key ++ ".json.tmp"])
        (.file content mtime)) :
    s.Written place content d
      (e.moveTree (place ++ [s.key ++ ".json.tmp"])
        (place ++ [s.key ++ ".json"])) := by
  have hPut : s.Refiled place d e := by
    rw [hWritten]
    exact hClear.refiled_put (by decide) hTemp content mtime
  have hNode :
      e.node? (place ++ [s.key ++ ".json.tmp"]) =
        some (.file content mtime) := by
    rw [hWritten, Disk.node?_put (by simp), if_pos rfl]
  have hSource :
      Disk.wayAt (e.node? (place ++ [s.key ++ ".json.tmp"])) =
        .stops := by
    rw [hNode]
    rfl
  have hTarget :
      Disk.wayAt (e.node? (place ++ [s.key ++ ".json"])) =
        .stops :=
    (hClear.isFree_iff hPut ".json").mpr hPath
  have hApart := temp_apart s place
  have hFirst :
      d.SameBut e fun other =>
        other = place ++ [s.key ++ ".json.tmp"] ∨
          other = place ++ [s.key ++ ".json"] := by
    rw [hWritten]
    exact (Disk.sameBut_put (by simp) _).mono fun _ => Or.inl
  refine ⟨⟨mtime, ?_⟩, Disk.node?_moveTree_source hApart,
    hPut.ways.trans
      (Disk.sameWays_moveTree hApart hSource hTarget),
    hFirst.trans (Disk.sameBut_moveTree (hPut.links hTree).1
      hApart hSource hTarget)⟩
  rw [Disk.node?_moveTree_target hApart, hNode]

/- A file that cannot take it is removed. -/
theorem IsFree.cleared_of_drop
    (hTemp : s.IsFree d place ".json.tmp")
    (hWritten :
      e = d.put (place ++ [s.key ++ ".json.tmp"])
        (.file content mtime)) :
    s.Cleared place d
      (e.drop (place ++ [s.key ++ ".json.tmp"])) := by
  have hNone :
      (e.drop (place ++ [s.key ++ ".json.tmp"])).node?
        (place ++ [s.key ++ ".json.tmp"]) = none := by
    rw [Disk.node?_drop (by simp), if_pos rfl]
  have hOthers :
      d.SameBut (e.drop (place ++ [s.key ++ ".json.tmp"]))
        (· = place ++ [s.key ++ ".json.tmp"]) := by
    rw [hWritten]
    exact (Disk.sameBut_put (by simp) _).trans
      (Disk.sameBut_drop (by simp))
  refine ⟨Or.inl hNone, hOthers.sameWays ?_, hOthers⟩
  rintro other rfl
  rw [hNone]
  exact hTemp.symm

/-
  Writing replaces the artifact, or fails and clears away what
  it wrote. A directory is all that can be in the way: of the
  file that is written first, or of the artifact.
-/
theorem Clear.write_outcome
    {desk : Desk}
    {k : Snapshot}
    (hKey : '/' ∉ s.key.toList)
    (hClear : s.Clear desk.disk place)
    (hTree : desk.disk.IsTree)
    (hWritable : k.isWritable = true) :
    (∃ after,
      s.write k desk = .ok () { desk with disk := after } ∧
      s.Written place k.artifact.toUTF8 desk.disk after) ∨
    ∃ after failure,
      s.write k desk =
        .error (.artifactNotWritten s.path failure)
          { desk with disk := after } ∧
      s.Cleared place desk.disk after := by
  rw [write_eq, if_pos hWritable]
  generalize k.artifact.toUTF8 = content
  unfold replace
  by_cases hTemp : s.IsFree desk.disk place ".json.tmp"
  · -- The content is beside the artifact, and is moved or removed.
    rw [hClear.write_of_isFree hKey hTemp]
    generalize hWritten :
      desk.disk.put (place ++ [s.key ++ ".json.tmp"])
        (.file content Desk.ownTime) = written
    have hPut : s.Refiled place desk.disk written := by
      rw [← hWritten]
      exact hClear.refiled_put (by decide) hTemp _ _
    have hThere := hClear.of_refiled hPut
    have hNode :
        written.node? (place ++ [s.key ++ ".json.tmp"]) =
          some (.file content Desk.ownTime) := by
      rw [← hWritten, Disk.node?_put (by simp), if_pos rfl]
    by_cases hPath : s.IsFree written place ".json"
    · left
      refine ⟨_, ?_, hClear.written_of_move hTree hTemp
        ((hClear.isFree_iff hPut ".json").mp hPath)
        hWritten.symm⟩
      dsimp only
      rw [hThere.rename_of_isFree hKey hNode hPath]
    · right
      rcases hThere.dir_of_not_isFree (by decide) hPath with
        ⟨time, hDir⟩
      refine ⟨_, ⟨.isDirectory, s.tempPath, some s.path⟩, ?_,
        hTemp.cleared_of_drop hWritten.symm⟩
      dsimp only
      rw [hThere.rename_of_dir hKey hNode hDir]
      dsimp only
      rw [hThere.unlink_of_file hKey hNode]
      rfl
  · -- A directory is in the way, and cannot be removed either.
    right
    rcases hClear.dir_of_not_isFree (by decide) hTemp with
      ⟨time, hDir⟩
    refine ⟨desk.disk, ⟨.isDirectory, s.tempPath, none⟩, ?_,
      Or.inr ⟨time, hDir, hDir⟩, .refl desk.disk,
      .refl desk.disk _⟩
    rw [hClear.write_of_dir hKey hDir]
    dsimp only
    rw [hClear.unlink_of_dir hKey hDir]
    rfl

end Store

end SymbolAtlas

------------------------------------------------------------
-- Whole Saves and Their Failures
------------------------------------------------------------

namespace SymbolAtlas

/- Some of the paths leads to the place. -/
def Disk.IsLedTo
    (d : Disk)
    (paths : List String)
    (place : Place) : Prop :=
  ∃ path ∈ paths, ∃ node, d.locate false path = .ok ⟨place, node⟩

namespace Store

/- The files of a store. -/
def files (s : Store) : List String :=
  suffixes.map s.fileIn

/-
  The disk is a tree in which the working directory exists, and
  no link stands for a file of the store.
-/
structure IsUsable (s : Store) (d : Disk) : Prop where
  tree : d.IsTree
  cwd : d.Grounded d.cwd
  links : ∀ file ∈ s.files, ¬ d.IsLink file

/- The artifact is that of the snapshot. -/
structure Replaced
    (s : Store)
    (k : Snapshot)
    (d e : Disk) : Prop where
  artifact : e.read s.path = .ok k.artifact.toUTF8
  temp : e.standing s.tempPath = .ok none
  lock : e.isFile s.lockPath = true
  others : d.SameBut e (d.IsLedTo s.files)

/- The artifact is as it was. -/
structure Kept (s : Store) (d e : Disk) : Prop where
  artifact : e.standing s.path = d.standing s.path
  others : d.SameBut e (d.IsLedTo s.files)

/- How a save can fail, and what is beside the artifact then. -/
inductive Failed
    (s : Store)
    (k : Snapshot)
    (d e : Disk) : Error → Prop where
  | lock
      (fault : Fault)
      (hOpen :
        d.openAppending s.lockPath Desk.ownTime = .error fault)
      (hSame : e = d) :
      Failed s k d e
        (.lockNotOpened s.lockPath ⟨fault, s.lockPath, none⟩)
  | number
      (hLong : k.isWritable = false)
      (hTemp : e.standing s.tempPath = d.standing s.tempPath) :
      Failed s k d e .longNumber
  | file
      (failure : DiskFailure)
      (hTemp :
        e.standing s.tempPath = .ok none ∨
        ∃ mtime,
          d.standing s.tempPath = .ok (some (.dir mtime)) ∧
          e.standing s.tempPath = .ok (some (.dir mtime))) :
      Failed s k d e (.artifactNotWritten s.path failure)

/- A save opens the lock and writes. -/
theorem save_eq
    (s : Store)
    (k : Snapshot)
    (desk : Desk) :
    s.save k desk =
      match
        desk.disk.openAppending s.lockPath Desk.ownTime with
      | .error fault =>
          .error
            (.lockNotOpened s.lockPath ⟨fault, s.lockPath, none⟩)
            desk
      | .ok opened => s.write k { desk with disk := opened } := by
  unfold save
  cases hOpen :
      desk.disk.openAppending s.lockPath Desk.ownTime with
  | ok opened =>
      rw [Work.bind_of_ok (acquire_of_openAppending hOpen _)]
  | error fault =>
      have hAcquire :
          Lock.acquire ⟨s.lockPath, false, none⟩ .exclusive
            Others.absent desk =
          .error (.lockNotOpened s.lockPath
            ⟨fault, s.lockPath, none⟩) desk := by
        unfold Lock.acquire Lock.opened
        simp only [bind, EStateM.bind, Bool.false_eq_true,
          if_false, Desk.attempt_eq, hOpen]
      rw [Work.bind_of_error hAcquire]

variable {s : Store} {d e f : Disk} {place : Place}
variable {k : Snapshot} {suffix : String}

section

variable (hKey : '/' ∉ s.key.toList)

include hKey

theorem Clear.standing_fileIn
    (hClear : s.Clear d place)
    (hSuffix : suffix ∈ suffixes) :
    d.standing (s.fileIn suffix) =
      .ok (d.node? (place ++ [s.key ++ suffix])) := by
  unfold Disk.standing
  rw [hClear.locate_fileIn hKey hSuffix]
  rfl

/- The paths of the store lead to its files. -/
theorem Clear.isLedTo_iff
    {other : Place}
    (hClear : s.Clear d place) :
    d.IsLedTo s.files other ↔
      ∃ suffix ∈ suffixes, other = place ++ [s.key ++ suffix] := by
  unfold Disk.IsLedTo Store.files
  constructor
  · rintro ⟨path, hPath, node, hLocate⟩
    rcases List.mem_map.mp hPath with ⟨suffix, hSuffix, rfl⟩
    rw [hClear.locate_fileIn hKey hSuffix] at hLocate
    cases hLocate
    exact ⟨suffix, hSuffix, rfl⟩
  · rintro ⟨suffix, hSuffix, rfl⟩
    exact ⟨s.fileIn suffix, List.mem_map_of_mem hSuffix, _,
      hClear.locate_fileIn hKey hSuffix false⟩

theorem Clear.isLedTo_eq
    (hClear : s.Clear d place)
    (hThere : s.Clear e place) :
    e.IsLedTo s.files = d.IsLedTo s.files := by
  funext other
  rw [eq_iff_iff, hThere.isLedTo_iff hKey, hClear.isLedTo_iff hKey]

theorem Clear.isLedTo
    (hClear : s.Clear d place)
    (hSuffix : suffix ∈ suffixes) :
    d.IsLedTo s.files (place ++ [s.key ++ suffix]) :=
  (hClear.isLedTo_iff hKey).mpr ⟨suffix, hSuffix, rfl⟩

/- What is written is the artifact. -/
theorem Written.replaced
    (hClear : s.Clear d place)
    (hOpen :
      d.openAppending s.lockPath Desk.ownTime = .ok e)
    (hWritten : s.Written place k.artifact.toUTF8 e f) :
    s.Replaced k d f := by
  have hOpened := hClear.openAppending hKey hOpen
  have hAfter := (hClear.of_refiled hOpened).of_sameWays hWritten.ways
  rcases hClear.sameBut_openAppending hKey hOpen with
    ⟨hSame, content, time, hLock⟩
  have hHeld :
      f.node? (place ++ [s.key ++ ".json.lock"]) =
        some (.file content time) := by
    rw [hWritten.others.nodes _ (by simp), hLock]
  refine ⟨hAfter.read_path hKey hWritten.artifact, ?_, ?_, ?_⟩
  · exact (hAfter.standing_fileIn hKey (by decide)).trans
      (by rw [hWritten.temp])
  · refine Disk.isFile_iff.mpr
      ⟨place ++ [s.key ++ ".json.lock"], content, time, ?_⟩
    exact (hAfter.locate_fileIn hKey (by decide) true).trans
      (by rw [hHeld])
  · apply (hSame.mono _).trans (hWritten.others.mono _)
    · rintro other rfl
      exact hClear.isLedTo hKey (by decide)
    · rintro other (rfl | rfl)
      · exact hClear.isLedTo hKey (by decide)
      · exact hClear.isLedTo hKey (by decide)

/- The lock is not the artifact, nor what stands beside it. -/
theorem Clear.standing_openAppending
    (hClear : s.Clear d place)
    (hOpen :
      d.openAppending s.lockPath Desk.ownTime = .ok e)
    (hSuffix : suffix ∈ suffixes)
    (hOther : suffix ≠ ".json.lock") :
    e.standing (s.fileIn suffix) =
      d.standing (s.fileIn suffix) := by
  have hOpened := hClear.openAppending hKey hOpen
  have hSame := (hClear.sameBut_openAppending hKey hOpen).1
  rw [hClear.standing_fileIn hKey hSuffix,
    (hClear.of_refiled hOpened).standing_fileIn hKey hSuffix,
    hSame.nodes _ (by simpa using hOther)]

/- Opening the lock keeps the artifact. -/
theorem Clear.kept_of_openAppending
    (hClear : s.Clear d place)
    (hOpen :
      d.openAppending s.lockPath Desk.ownTime = .ok e) :
    s.Kept d e where
  artifact :=
    hClear.standing_openAppending hKey hOpen (by decide)
      (by decide)
  others := by
    apply (hClear.sameBut_openAppending hKey hOpen).1.mono
    rintro other rfl
    exact hClear.isLedTo hKey (by decide)

/- What is cleared away was not the artifact. -/
theorem Cleared.kept
    (hClear : s.Clear d place)
    (hCleared : s.Cleared place d e) :
    s.Kept d e where
  artifact := by
    have hAfter := hClear.of_sameWays hCleared.ways
    refine (hAfter.standing_fileIn hKey (by decide)).trans
      (Eq.trans ?_
        (hClear.standing_fileIn hKey (by decide)).symm)
    rw [hCleared.others.nodes _ (by simp)]
  others := by
    apply hCleared.others.mono
    rintro other rfl
    exact hClear.isLedTo hKey (by decide)

theorem Cleared.standing_tempPath
    (hClear : s.Clear d place)
    (hCleared : s.Cleared place d e) :
    e.standing s.tempPath = .ok none ∨
    ∃ mtime,
      d.standing s.tempPath = .ok (some (.dir mtime)) ∧
      e.standing s.tempPath = .ok (some (.dir mtime)) := by
  have hBefore : d.standing s.tempPath = _ :=
    hClear.standing_fileIn hKey (by decide)
  have hAfter : e.standing s.tempPath = _ :=
    (hClear.of_sameWays hCleared.ways).standing_fileIn hKey
      (by decide)
  rw [hBefore, hAfter]
  rcases hCleared.temp with hNone | ⟨mtime, hOld, hNew⟩
  · left
    rw [hNone]
  · right
    exact ⟨mtime, by rw [hOld], by rw [hNew]⟩

omit hKey in
theorem Kept.refl
    (s : Store)
    (d : Disk) :
    s.Kept d d :=
  ⟨rfl, .refl d _⟩

theorem Kept.trans
    (hClear : s.Clear d place)
    (hThere : s.Clear e place)
    (hFirst : s.Kept d e)
    (hSecond : s.Kept e f) :
    s.Kept d f where
  artifact := hSecond.artifact.trans hFirst.artifact
  others := by
    have hOthers := hSecond.others
    rw [hClear.isLedTo_eq hKey hThere] at hOthers
    exact hFirst.others.trans hOthers

/- A save ends in one of two ways, if its key is one name. -/
theorem IsUsable.save_outcome
    {desk : Desk}
    (hUsable : s.IsUsable desk.disk)
    (k : Snapshot) :
    (∃ after,
      s.save k desk = .ok () { desk with disk := after } ∧
      s.Replaced k desk.disk after) ∨
    ∃ error after,
      s.save k desk =
        .error error { desk with disk := after } ∧
      s.Kept desk.disk after ∧
      s.Failed k desk.disk after error := by
  rw [save_eq]
  cases hOpen :
      desk.disk.openAppending s.lockPath Desk.ownTime with
  | error fault =>
      right
      exact ⟨_, desk.disk, rfl, .refl s _, .lock fault hOpen rfl⟩
  | ok opened =>
      have hStart := Disk.grounded_startOf hUsable.cwd s.directory
      have hLinks := List.forall_mem_map.mp hUsable.links
      rcases clear_of_openAppending hKey hStart hLinks hOpen with
        ⟨place, hClear⟩
      have hOpened := hClear.openAppending hKey hOpen
      have hThere :
          s.Clear { desk with disk := opened }.disk place :=
        hClear.of_refiled hOpened
      have hKept := hClear.kept_of_openAppending hKey hOpen
      have hTemp : opened.standing s.tempPath =
          desk.disk.standing s.tempPath :=
        hClear.standing_openAppending hKey hOpen (by decide)
          (by decide)
      -- What the lock changed is not what a failure would change.
      by_cases hWritable : k.isWritable = true
      · rcases hThere.write_outcome hKey
          (hOpened.links hUsable.tree).1 hWritable with
          ⟨after, hWrite, hWritten⟩ |
          ⟨after, failure, hWrite, hCleared⟩
        · left
          exact ⟨after, hWrite,
            hWritten.replaced hKey hClear hOpen⟩
        · right
          have hLeft := hCleared.standing_tempPath hKey hThere
          rw [hTemp] at hLeft
          exact ⟨_, after, hWrite,
            hKept.trans hKey hClear hThere
              (hCleared.kept hKey hThere),
            .file failure hLeft⟩
      · right
        refine ⟨.longNumber, opened, ?_, hKept,
          .number (by simpa using hWritable) hTemp⟩
        dsimp only
        rw [write_eq, if_neg hWritable]

end

end Store

end SymbolAtlas

------------------------------------------------------------
-- All or Nothing
------------------------------------------------------------

namespace SymbolAtlas

namespace Store

variable {s t : Store} {k : Snapshot} {d e : Disk}

theorem Alike.files_eq
    (hAlike : s.Alike t) :
    t.files = s.files := by
  unfold files
  rw [List.map_inj_left]
  exact hAlike.fileIn_eq

theorem Alike.isUsable
    (hAlike : s.Alike t)
    (hUsable : s.IsUsable d) :
    t.IsUsable d := by
  refine ⟨hUsable.tree, hUsable.cwd, ?_⟩
  rw [hAlike.files_eq]
  exact hUsable.links

theorem Alike.replaced
    (hAlike : s.Alike t)
    (hReplaced : t.Replaced k d e) :
    s.Replaced k d e := by
  rcases hReplaced with ⟨hArtifact, hTemp, hLock, hOthers⟩
  rw [hAlike.path] at hArtifact
  rw [hAlike.tempPath] at hTemp
  rw [hAlike.lockPath] at hLock
  rw [hAlike.files_eq] at hOthers
  exact ⟨hArtifact, hTemp, hLock, hOthers⟩

theorem Alike.kept
    (hAlike : s.Alike t)
    (hKept : t.Kept d e) :
    s.Kept d e := by
  rcases hKept with ⟨hArtifact, hOthers⟩
  rw [hAlike.path] at hArtifact
  rw [hAlike.files_eq] at hOthers
  exact ⟨hArtifact, hOthers⟩

theorem Alike.failed
    {error : Error}
    (hAlike : s.Alike t)
    (hFailed : t.Failed k d e error) :
    s.Failed k d e error := by
  cases hFailed with
  | lock fault hOpen hDisk =>
      rw [hAlike.lockPath] at hOpen ⊢
      exact .lock fault hOpen hDisk
  | number hLong hTemp =>
      rw [hAlike.tempPath] at hTemp
      exact .number hLong hTemp
  | file failure hTemp =>
      rw [hAlike.tempPath] at hTemp
      rw [hAlike.path]
      exact .file failure hTemp

/-
  A save returns and the artifact is that of the snapshot, or it
  fails and the artifact is as it was. What was written beside
  it is gone, whatever went wrong after the lock was opened; if
  the lock could not be opened, the disk is the same.
-/
theorem save_is_atomic
    {desk : Desk}
    (hUsable : s.IsUsable desk.disk)
    (k : Snapshot) :
    (∃ after,
      s.save k desk = .ok () { desk with disk := after } ∧
      s.Replaced k desk.disk after) ∨
    ∃ error after,
      s.save k desk =
        .error error { desk with disk := after } ∧
      s.Kept desk.disk after ∧
      s.Failed k desk.disk after error := by
  rcases s.exists_alike with ⟨t, hKey, hAlike⟩
  rcases (hAlike.isUsable hUsable).save_outcome hKey k with
    ⟨after, hSave, hReplaced⟩ |
    ⟨error, after, hSave, hKept, hFailed⟩
  · left
    rw [hAlike.save_eq] at hSave
    exact ⟨after, hSave, hAlike.replaced hReplaced⟩
  · right
    rw [hAlike.save_eq] at hSave
    exact ⟨error, after, hSave, hAlike.kept hKept,
      hAlike.failed hFailed⟩

/- A desk with a directory in the way of the lock file. -/
def blockedDesk : Desk where
  disk.nodes := [
    (["c"], .newDirectory),
    (["c", "k.json.lock"], .newDirectory),
    (["c", "k.json.tmp"], .file "x".toUTF8 7)]

/- A number of more digits than are ever written. -/
def longSnapshot : Snapshot where
  missing :=
    .ofList [("A", Int.ofNat (Nat.pow 10 Datum.digitLimit))]

/-
  Nothing is cleared away without the lock. A number that is too
  long is not a failure of the cache.
-/
theorem leftover_outlives_failed_save :
    IsUsable quietStore blockedDesk.disk ∧
    (∃ error,
      save quietStore {} blockedDesk =
        .error error blockedDesk ∧
      error.family = .cache) ∧
    blockedDesk.disk.standing (tempPath quietStore) =
      .ok (some (.file "x".toUTF8 7)) ∧
    IsUsable quietStore emptyDesk.disk ∧
    ∃ error final,
      save quietStore longSnapshot emptyDesk =
        .error error final ∧
      error.family ≠ .cache := by
  have hEmpty : IsUsable quietStore emptyDesk.disk :=
    ⟨by decide +kernel, Disk.grounded_nil _, by decide +kernel⟩
  have hBlocked : IsUsable quietStore blockedDesk.disk :=
    ⟨by decide +kernel, Disk.grounded_nil _, by decide +kernel⟩
  have hLong : ¬ longSnapshot.isWritable = true := by
    decide +kernel
  have hOpen :
      ∃ opened,
        emptyDesk.disk.openAppending
          (lockPath quietStore) Desk.ownTime =
          .ok opened :=
    ⟨_, rfl⟩
  rcases hOpen with ⟨opened, hOpen⟩
  refine ⟨hBlocked, ⟨_, rfl, rfl⟩, rfl, hEmpty, .longNumber,
    { emptyDesk with disk := opened }, ?_, by decide⟩
  rw [save_eq, hOpen]
  dsimp only
  rw [write_eq, if_neg hLong]

/- A save into an empty directory, and one without a lock. -/
theorem empty_and_blocked_saves :
    (IsUsable quietStore emptyDesk.disk ∧
      ∃ final,
        save quietStore strangeSnapshot emptyDesk =
          .ok () final ∧
        Replaced quietStore strangeSnapshot
          emptyDesk.disk final.disk) ∧
    IsUsable quietStore blockedDesk.disk ∧
    ∃ error final,
      save quietStore strangeSnapshot blockedDesk =
        .error error final ∧
      Kept quietStore blockedDesk.disk final.disk := by
  have hEmpty : IsUsable quietStore emptyDesk.disk :=
    ⟨by decide +kernel, Disk.grounded_nil _, by decide +kernel⟩
  have hBlocked : IsUsable quietStore blockedDesk.disk :=
    ⟨by decide +kernel, Disk.grounded_nil _, by decide +kernel⟩
  have hSaved :
      hasSaved quietStore strangeSnapshot emptyDesk =
        true := by
    decide +kernel
  have hFails :
      hasSaved quietStore strangeSnapshot blockedDesk =
        false := by
    decide +kernel
  refine ⟨⟨hEmpty, ?_⟩, hBlocked, ?_⟩
  · rcases save_is_atomic hEmpty strangeSnapshot with
      ⟨after, hSave, hReplaced⟩ | ⟨error, after, hSave, -, -⟩
    · exact ⟨_, hSave, hReplaced⟩
    · unfold hasSaved at hSaved
      rw [hSave] at hSaved
      cases hSaved
  · rcases save_is_atomic hBlocked strangeSnapshot with
      ⟨after, hSave, -⟩ | ⟨error, after, hSave, hKept, -⟩
    · unfold hasSaved at hFails
      rw [hSave] at hFails
      cases hFails
    · exact ⟨error, _, hSave, hKept⟩

end Store

end SymbolAtlas
