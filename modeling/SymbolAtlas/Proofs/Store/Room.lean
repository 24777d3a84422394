import SymbolAtlas.Proofs.Disk.Leading
import SymbolAtlas.Proofs.Disk.Outside
import SymbolAtlas.Proofs.Store.Loading
import SymbolAtlas.Proofs.Text.Markup

/-
  Saves that cannot fail.

  A save fails if a number is too long or if something stands
  where a file of the store should be. Where one save has
  succeeded there is room for all that follow, and the disk does
  not change outside the directory of the store.

  Key definitions:
    * `Store.HasRoom`, `Store.CanTell`
  Key theorems:
    * `Store.Clear.hasRoom_of_save`
    * `Store.Clear.exists_save`
    * `Store.HasRoom.twins`
    * `Store.ends_seek_room`
-/

------------------------------------------------------------
-- Room for Files
------------------------------------------------------------

namespace SymbolAtlas

namespace Store

/- A file can stand at the place of a file of the store. -/
def IsFree
    (s : Store)
    (d : Disk)
    (place : Place)
    (suffix : String) : Prop :=
  Disk.wayAt (d.node? (place ++ [s.key ++ suffix])) = .stops

/- All files of the store can stand at their places. -/
def HasRoom
    (s : Store)
    (d : Disk)
    (place : Place) : Prop :=
  ∀ suffix ∈ suffixes, s.IsFree d place suffix

variable {s : Store} {d e : Disk} {place : Place}
variable {content : ByteArray} {suffix : String} {mtime : Int}

/- Where all ways are the same there is the same room. -/
theorem Clear.isFree_iff
    (hClear : s.Clear d place)
    (hRefiled : s.Refiled place d e)
    (suffix : String) :
    s.IsFree e place suffix ↔ s.IsFree d place suffix := by
  unfold IsFree
  rw [hRefiled.ways.ways place _ hClear.directory.grounded]

theorem Clear.hasRoom_iff
    (hClear : s.Clear d place)
    (hRefiled : s.Refiled place d e) :
    s.HasRoom e place ↔ s.HasRoom d place :=
  forall₂_congr fun suffix _ => hClear.isFree_iff hRefiled suffix

/- Only the places of the files matter. -/
theorem HasRoom.of_nodes_eq
    (hRoom : s.HasRoom d place)
    (hNodes :
      ∀ suffix ∈ suffixes,
        e.node? (place ++ [s.key ++ suffix]) =
          d.node? (place ++ [s.key ++ suffix])) :
    s.HasRoom e place := by
  intro suffix hSuffix
  unfold IsFree
  rw [hNodes suffix hSuffix]
  exact hRoom suffix hSuffix

variable (hKey : '/' ∉ s.key.toList)

include hKey

theorem Clear.isFree_of_openAppending
    (hClear : s.Clear d place)
    (hOpen : d.openAppending s.lockPath mtime = .ok e) :
    s.IsFree d place ".json.lock" := by
  unfold Disk.openAppending lockPath at hOpen
  rw [hClear.locate_fileIn hKey (by decide)] at hOpen
  unfold IsFree
  cases hNode : d.node? (place ++ [s.key ++ ".json.lock"]) with
  | none => rfl
  | some node =>
      rw [hNode] at hOpen
      cases node with
      | dir time => cases hOpen
      | file old time => rfl
      | link target =>
          exact absurd hNode
            (hClear.files ".json.lock" (by decide) target)

theorem Clear.isFree_of_write
    (hClear : s.Clear d place)
    (hWrite : d.write s.tempPath content mtime = .ok e) :
    s.IsFree d place ".json.tmp" := by
  unfold Disk.write tempPath at hWrite
  rw [hClear.locate_fileIn hKey (by decide)] at hWrite
  unfold IsFree
  cases hNode : d.node? (place ++ [s.key ++ ".json.tmp"]) with
  | none => rfl
  | some node =>
      rw [hNode] at hWrite
      cases node with
      | dir time => cases hWrite
      | file old time => rfl
      | link target =>
          exact absurd hNode
            (hClear.files ".json.tmp" (by decide) target)

theorem Clear.isFree_of_rename
    (hClear : s.Clear d place)
    (hTemp :
      d.node? (place ++ [s.key ++ ".json.tmp"]) =
        some (.file content mtime))
    (hRename : d.rename s.tempPath s.path = .ok e) :
    s.IsFree d place ".json" := by
  unfold Disk.rename tempPath path at hRename
  rw [hClear.locate_fileIn hKey (by decide),
    hClear.locate_fileIn hKey (by decide), hTemp] at hRename
  unfold IsFree
  cases hNode : d.node? (place ++ [s.key ++ ".json"]) with
  | none => rfl
  | some node =>
      rw [hNode] at hRename
      cases node with
      | dir time => cases hRename
      | file old time => rfl
      | link target =>
          exact absurd hNode
            (hClear.files ".json" (by decide) target)

end Store

end SymbolAtlas

------------------------------------------------------------
-- Saves That Succeed
------------------------------------------------------------

namespace SymbolAtlas

namespace Store

variable {s : Store} {place : Place} {k : Snapshot}
variable {desk final : Desk}
variable (hKey : '/' ∉ s.key.toList)

include hKey

/- What was written had room. -/
theorem Clear.hasRoom_of_write
    (hClear : s.Clear desk.disk place)
    (hLock : s.IsFree desk.disk place ".json.lock")
    (hWrite : s.write k desk = .ok () final) :
    s.HasRoom desk.disk place := by
  rcases exists_of_write_eq_ok hWrite with
    ⟨written, renamed, -, hTemp, hRename, -⟩
  rcases hClear.write_tempPath hKey hTemp with ⟨hWritten, hNode⟩
  have hPath :=
    (hClear.of_refiled hWritten).isFree_of_rename hKey hNode
      hRename
  have hFree := (hClear.isFree_iff hWritten ".json").mp hPath
  simp only [HasRoom, suffixes, List.forall_mem_cons]
  exact ⟨hFree, hLock, hClear.isFree_of_write hKey hTemp, by simp⟩

theorem Clear.hasRoom_of_save
    (hClear : s.Clear desk.disk place)
    (hSave : s.save k desk = .ok () final) :
    s.HasRoom desk.disk place := by
  unfold save at hSave
  rcases acquire_cases s.lockPath .exclusive desk with
    ⟨lock, after, hAcquire, hOpen⟩ | ⟨error, hAcquire⟩
  · rw [Work.bind_of_ok hAcquire] at hSave
    have hLocked := hClear.openAppending hKey hOpen
    have hLock := hClear.isFree_of_openAppending hKey hOpen
    have hThere : s.Clear { desk with disk := after }.disk place :=
      hClear.of_refiled hLocked
    have hRoom := hThere.hasRoom_of_write hKey
      ((hClear.isFree_iff hLocked _).mpr hLock) hSave
    exact (hClear.hasRoom_iff hLocked).mp hRoom
  · rw [Work.bind_of_error hAcquire] at hSave
    cases hSave

/- The lock can be opened if it has room. -/
theorem Clear.exists_openAppending
    {d : Disk}
    (hClear : s.Clear d place)
    (hFree : s.IsFree d place ".json.lock")
    (mtime : Int) :
    ∃ e, d.openAppending s.lockPath mtime = .ok e := by
  unfold Disk.openAppending lockPath
  rw [hClear.locate_fileIn hKey (by decide)]
  unfold IsFree at hFree
  cases hNode : d.node? (place ++ [s.key ++ ".json.lock"]) with
  | none => exact ⟨_, rfl⟩
  | some node =>
      rw [hNode] at hFree
      cases node with
      | dir time => cases hFree
      | file old time => exact ⟨_, rfl⟩
      | link target => cases hFree

/- What is written goes to the place beside the artifact. -/
theorem Clear.write_of_isFree
    {d : Disk}
    {content : ByteArray}
    {mtime : Int}
    (hClear : s.Clear d place)
    (hFree : s.IsFree d place ".json.tmp") :
    d.write s.tempPath content mtime =
      .ok (d.put (place ++ [s.key ++ ".json.tmp"])
        (.file content mtime)) := by
  unfold IsFree at hFree
  unfold Disk.write tempPath
  rw [hClear.locate_fileIn hKey (by decide)]
  cases hNode : d.node? (place ++ [s.key ++ ".json.tmp"]) with
  | none => rfl
  | some node =>
      rw [hNode] at hFree
      cases node with
      | dir time => cases hFree
      | file old time => rfl
      | link target => cases hFree

/- A file beside the artifact can take its place. -/
theorem Clear.rename_of_isFree
    {d : Disk}
    {content : ByteArray}
    {mtime : Int}
    (hClear : s.Clear d place)
    (hTemp :
      d.node? (place ++ [s.key ++ ".json.tmp"]) =
        some (.file content mtime))
    (hFree : s.IsFree d place ".json") :
    d.rename s.tempPath s.path =
      .ok (d.moveTree (place ++ [s.key ++ ".json.tmp"])
        (place ++ [s.key ++ ".json"])) := by
  unfold IsFree at hFree
  unfold Disk.rename tempPath path
  rw [hClear.locate_fileIn hKey (by decide),
    hClear.locate_fileIn hKey (by decide), hTemp]
  cases hNode : d.node? (place ++ [s.key ++ ".json"]) with
  | none =>
      dsimp only
      rw [if_neg (artifact_ne_temp s place).symm]
  | some node =>
      rw [hNode] at hFree
      cases node with
      | dir time => cases hFree
      | file old time =>
          dsimp only
          rw [if_neg (artifact_ne_temp s place).symm]
      | link target => cases hFree

omit hKey in
/- A lock whose file can be opened is taken. -/
theorem acquire_of_openAppending
    {file : String}
    {after : Disk}
    (hOpen : desk.disk.openAppending file Desk.ownTime = .ok after)
    (mode : LockMode) :
    Lock.acquire ⟨file, false, none⟩ mode Others.absent desk =
      .ok ⟨file, true, some mode⟩ { desk with disk := after } := by
  unfold Lock.acquire Lock.opened
  simp only [bind, EStateM.bind, Bool.false_eq_true, if_false,
    Desk.attempt_eq, hOpen]
  rfl

omit hKey in
/- A lock that is open is taken as it is. -/
theorem acquire_of_open
    (file : String)
    (mode : LockMode)
    (desk : Desk) :
    Lock.acquire ⟨file, true, none⟩ mode Others.absent desk =
      .ok ⟨file, true, some mode⟩ desk :=
  rfl

/- A snapshot that can be written is where there is room. -/
theorem Clear.exists_replaced
    (hClear : s.Clear desk.disk place)
    (hRoom : s.HasRoom desk.disk place)
    (hWritable : k.isWritable = true) :
    ∃ final, s.write k desk = .ok () final := by
  have hWrite :
      desk.disk.write s.tempPath k.artifact.toUTF8 Desk.ownTime =
        .ok _ :=
    hClear.write_of_isFree hKey (hRoom _ (by decide))
  rcases hClear.write_tempPath hKey hWrite with ⟨hWritten, hTemp⟩
  have hFree :=
    (hClear.isFree_iff hWritten ".json").mpr
      (hRoom ".json" (by decide))
  have hRename := (hClear.of_refiled hWritten).rename_of_isFree
    hKey hTemp hFree
  rw [write_eq, if_pos hWritable]
  unfold replace
  rw [hWrite]
  dsimp only
  rw [hRename]
  exact ⟨_, rfl⟩

/- It is saved there, under a lock that is held or a new one. -/
theorem Clear.exists_save
    (hClear : s.Clear desk.disk place)
    (hRoom : s.HasRoom desk.disk place)
    (hWritable : k.isWritable = true) :
    ∃ final, s.save k desk = .ok () final := by
  rcases hClear.exists_openAppending hKey
      (hRoom _ (by decide)) Desk.ownTime with
    ⟨after, hOpen⟩
  have hLocked := hClear.openAppending hKey hOpen
  have hAcquire := acquire_of_openAppending hOpen .exclusive
  unfold save
  rw [Work.bind_of_ok hAcquire]
  exact (hClear.of_refiled hLocked).exists_replaced hKey
    ((hClear.hasRoom_iff hLocked).mpr hRoom) hWritable

theorem Clear.exists_saveWith
    (hClear : s.Clear desk.disk place)
    (hRoom : s.HasRoom desk.disk place)
    (hWritable : k.isWritable = true)
    (lock : Lock) :
    ∃ final, s.saveWith lock k desk = .ok () final := by
  unfold saveWith
  split
  · exact hClear.exists_replaced hKey hRoom hWritable
  · exact hClear.exists_save hKey hRoom hWritable

end Store

end SymbolAtlas

------------------------------------------------------------
-- The Rest of the Disk
------------------------------------------------------------

namespace SymbolAtlas

namespace Store

variable {s : Store} {d e : Disk} {place : Place}

/- A place below a file of the store is that of the file. -/
theorem HasRoom.node?_below
    (hRoom : s.HasRoom d place)
    (hTree : d.IsTree)
    {suffix : String}
    (hSuffix : suffix ∈ suffixes)
    {other : Place}
    (hBelow : place ++ [s.key ++ suffix] <+: other)
    (hOther : other ≠ place ++ [s.key ++ suffix]) :
    d.node? other = none := by
  rcases hBelow with ⟨rest, rfl⟩
  apply hTree.below_of_stops (hRoom suffix hSuffix)
  rintro rfl
  exact hOther (List.append_nil _)

/- Where searches stop is at a file of the store or below it. -/
theorem HasRoom.stops_below
    (hRoom : s.HasRoom d place)
    (hTree : d.IsTree)
    {suffix : String}
    (hSuffix : suffix ∈ suffixes)
    {other : Place}
    (hBelow : place ++ [s.key ++ suffix] <+: other) :
    Disk.wayAt (d.node? other) = .stops := by
  by_cases hOther : other = place ++ [s.key ++ suffix]
  · rw [hOther]
    exact hRoom suffix hSuffix
  · rw [hRoom.node?_below hTree hSuffix hBelow hOther]
    rfl

/- Where there is room, the files of the store have names. -/
theorem Clear.isSound_of_refiled
    (hKey : '/' ∉ s.key.toList)
    (hClear : s.Clear d place)
    (hRoom : s.HasRoom e place)
    (hTree : e.IsTree)
    (hSound : d.IsSound)
    (hRefiled : s.Refiled place d e) :
    e.IsSound where
  names := by
    rintro ⟨other, node⟩ hEntry
    by_cases hNil : other = []
    · simp [hNil]
    have hNode := hTree.node?_of_mem hNil hEntry
    by_cases hFiles :
        ∀ suffix ∈ suffixes,
          ¬ place ++ [s.key ++ suffix] <+: other
    · rw [hRefiled.nodes other hFiles] at hNode
      exact hSound.isName_of_node hNode
    · simp only [not_forall, not_not] at hFiles
      rcases hFiles with ⟨suffix, hSuffix, hBelow⟩
      by_cases hOther : other = place ++ [s.key ++ suffix]
      · have hName :=
          isSuffix_of_mem suffix hSuffix
        rcases Disk.dir_of_descends
            (hClear.directory.grounded place List.prefix_rfl) with
          ⟨mtime, hDirectory⟩
        rw [hOther, List.forall_mem_append,
          List.forall_mem_singleton]
        refine ⟨hSound.isName_of_node hDirectory,
          Disk.isPlain_of_length ?_, ?_⟩
        · rw [String.length_append]
          have hLong := hName.2
          omega
        · rw [String.toList_append, List.mem_append]
          exact not_or.mpr ⟨hKey, hName.1⟩
      · rw [hRoom.node?_below hTree hSuffix hBelow hOther] at hNode
        cases hNode
  places := hTree.places

/- Where there is room, only files of the directory change. -/
theorem HasRoom.twins
    (hRoom : s.HasRoom d place)
    (hKey : '/' ∉ s.key.toList)
    (hClear : s.Clear d place)
    (hTree : d.IsTree)
    (hSound : d.IsSound)
    (hRefiled : s.Refiled place d e) :
    Disk.Twins place d e := by
  rcases hRefiled.links hTree with ⟨hTreeToo, hLinks⟩
  have hRoomToo := (hClear.hasRoom_iff hRefiled).mpr hRoom
  refine ⟨⟨hLinks, hRefiled.denied, fun other => ?_⟩, hTree,
    hTreeToo, hSound,
    hClear.isSound_of_refiled hKey hRoomToo hTreeToo hSound
      hRefiled⟩
  by_cases hFiles :
      ∀ suffix ∈ suffixes,
        ¬ place ++ [s.key ++ suffix] <+: other
  · exact .inl (hRefiled.nodes other hFiles)
  · simp only [not_forall, not_not] at hFiles
    rcases hFiles with ⟨suffix, hSuffix, hBelow⟩
    exact .inr ⟨(List.prefix_append place _).trans hBelow,
      hRoom.stops_below hTree hSuffix hBelow,
      hRoomToo.stops_below hTreeToo hSuffix hBelow⟩

end Store

end SymbolAtlas

------------------------------------------------------------
-- What a Search Shows
------------------------------------------------------------

namespace SymbolAtlas

namespace Store

variable {s : Store} {place : Place} {d : Disk}

/- It can be told that the artifact was found. -/
def CanTell (s : Store) : Prop :=
  s.isDebug = true → (Notice.cacheHit s.path).check = .ok ()

/- What was told can be told. -/
theorem check_of_debug
    {notice : Notice}
    {desk final : Desk}
    (hTold : s.debug notice desk = .ok () final)
    (hDebug : s.isDebug = true) :
    notice.check = .ok () := by
  unfold debug at hTold
  rw [if_pos hDebug] at hTold
  unfold Desk.tell Desk.liftError at hTold
  cases hCheck : notice.check with
  | ok shown => rfl
  | error error =>
      rw [hCheck] at hTold
      cases hTold

variable (hKey : '/' ∉ s.key.toList)

include hKey

/- The paths of a store differ in their ends only. -/
theorem exists_stem :
    ∃ stem, ∀ suffix, IsSuffix suffix →
      s.fileIn suffix = stem ++ suffix := by
  have hText :
      ∃ stem, ∀ suffix,
        (Route.ofText s.directory).root ++
            Path.joined ((Route.ofText s.directory).names ++
              [s.key ++ suffix]) =
          stem ++ suffix := by
    by_cases hNames : (Route.ofText s.directory).names = []
    · refine ⟨(Route.ofText s.directory).root ++ s.key, ?_⟩
      intro suffix
      rw [hNames, String.append_assoc]
      simp [Path.joined]
    · refine ⟨(Route.ofText s.directory).root ++
        (Path.joined (Route.ofText s.directory).names ++ "/" ++
          s.key), ?_⟩
      intro suffix
      rw [Path.joined_concat hNames]
      simp only [String.append_assoc]
  rcases hText with ⟨stem, hStem⟩
  refine ⟨stem, ?_⟩
  intro suffix hSuffix
  have hSlash : '/' ∉ (s.key ++ suffix).toList := by
    rw [String.toList_append, List.mem_append]
    exact not_or.mpr ⟨hKey, hSuffix.1⟩
  have hLong : 2 < (s.key ++ suffix).length := by
    have hLength := hSuffix.2
    rw [String.length_append]
    omega
  have hSome : (stem ++ suffix).isEmpty = false := by
    rw [← Bool.not_eq_true, String.isEmpty_iff]
    intro hEmpty
    have hLength := congrArg String.length hEmpty
    rw [String.length_append, String.length_empty] at hLength
    have hShort := hSuffix.2
    omega
  unfold fileIn
  rw [route_fileIn hSlash hLong]
  unfold Route.text
  dsimp only
  rw [hStem, hSome]
  rfl

/- All that is told about the files can be told, or nothing. -/
theorem check_waiting_eq :
    (Notice.waiting s.lockPath).check =
      (Notice.cacheHit s.path).check := by
  rcases exists_stem hKey with ⟨stem, hStem⟩
  unfold lockPath path
  rw [hStem _ (by decide), hStem _ (by decide)]
  exact Notice.check_waiting stem

theorem check_building_eq :
    (Notice.building s.path).check =
      (Notice.cacheHit s.path).check := by
  rcases exists_stem hKey with ⟨stem, hStem⟩
  unfold path
  rw [hStem _ (by decide)]
  exact Notice.check_building stem

/-
  A search that succeeds shows that it can be told when the
  artifact is found, and that there is room for the lock if the
  artifact has to be built.
-/
theorem ends_seek_room :
    Work.Ends (s.Refiles place d) (s.seek Others.absent)
      fun found _ =>
        s.CanTell ∧
        ∀ lock, found = .inr lock →
          s.IsFree d place ".json.lock" := by
  unfold seek
  refine (ends_read hKey).bind fun first => ?_
  cases first with
  | some k =>
      intro desk found final _ hRun
      rcases Work.exists_of_bind_eq_ok hRun with
        ⟨_, middle, hTold, hPure⟩
      cases hPure
      refine ⟨check_of_debug hTold, ?_⟩
      rintro lock ⟨⟩
  | none =>
      intro desk found final hDesk hRun
      rcases Work.exists_of_bind_eq_ok hRun with
        ⟨_, middle, hTold, hRest⟩
      have hCanTell : s.CanTell := by
        intro hDebug
        rw [← check_waiting_eq hKey]
        exact check_of_debug hTold hDebug
      have hMiddle :=
        ends_debug (P := fun e =>
          s.Clear e place ∧ s.Refiled place d e) _ desk _ middle
            hDesk.1 hTold
      rcases Work.exists_of_bind_eq_ok hRest with
        ⟨lock, locked, hAcquire, -⟩
      rcases acquire_cases s.lockPath .shared middle with
        ⟨_, after, -, hOpen⟩ | ⟨error, hError⟩
      · refine ⟨hCanTell, fun _ _ => ?_⟩
        have hClear : s.Clear d place :=
          hMiddle.1.of_sameWays hMiddle.2.ways.symm
        apply (hClear.isFree_iff hMiddle.2 _).mp
        exact hMiddle.1.isFree_of_openAppending hKey hOpen
      · rw [hError] at hAcquire
        cases hAcquire

omit hKey in
/- What can be told is told. -/
theorem exists_debug
    {notice : Notice}
    (hTell : s.isDebug = true → notice.check = .ok ())
    (desk : Desk) :
    ∃ notices,
      s.debug notice desk =
        .ok () { desk with notices := notices } := by
  rcases debug_cases s notice desk with
    hTold | ⟨error, hDebug, hCheck, -⟩
  · exact hTold
  · rw [hTell hDebug] at hCheck
    cases hCheck

omit hKey in
/- What cannot be used is told, and then there is nothing. -/
theorem discard_eq
    (s : Store)
    (reason : String)
    (desk : Desk) :
    s.discard reason desk =
      if s.isDebug then
        match (Notice.unusable s.path reason).check with
        | .error error => .error error desk
        | .ok _ =>
            .ok none
              { desk with
                notices :=
                  desk.notices ++ [.unusable s.path reason] }
      else .ok none desk := by
  unfold discard debug
  split
  · unfold Desk.tell Desk.liftError
    cases (Notice.unusable s.path reason).check with
    | error error => rfl
    | ok shown => rfl
  · rfl

/- Nothing that can be used is read, and that can be told. -/
def OffersNothing (s : Store) (d : Disk) : Prop :=
  ∀ notices, ∃ more, s.read ⟨d, notices⟩ = .ok none ⟨d, more⟩

omit hKey in
/- Only the artifact matters. -/
theorem OffersNothing.of_read_eq
    {e : Disk}
    (hNothing : s.OffersNothing d)
    (hRead : e.read s.path = d.read s.path) :
    s.OffersNothing e := by
  have hDiscard (reason : String) (notices more : List Notice)
      (hNone :
        s.discard reason ⟨d, notices⟩ = .ok none ⟨d, more⟩) :
      s.discard reason ⟨e, notices⟩ = .ok none ⟨e, more⟩ := by
    rw [discard_eq] at hNone ⊢
    cases hDebug : s.isDebug with
    | false =>
        rw [hDebug] at hNone
        cases hNone
        rfl
    | true =>
        rw [hDebug] at hNone
        cases hCheck : (Notice.unusable s.path reason).check with
        | error error =>
            rw [hCheck] at hNone
            cases hNone
        | ok shown =>
            rw [hCheck] at hNone
            cases hNone
            rfl
  intro notices
  rcases hNothing notices with ⟨more, hNone⟩
  refine ⟨more, ?_⟩
  cases hFound : d.read s.path with
  | error fault =>
      unfold read at hNone ⊢
      rw [Work.bind_of_ok (Work.get_eq _)] at hNone ⊢
      dsimp only at hNone ⊢
      rw [hRead, hFound]
      rw [hFound] at hNone
      by_cases hEntry : fault = .noEntry
      · subst hEntry
        cases hNone
        rfl
      · simp only at hNone ⊢
        exact hDiscard _ notices more hNone
  | ok content =>
      have hThere :
          (⟨d, notices⟩ : Desk).disk.read s.path = .ok content :=
        hFound
      have hStill :
          (⟨e, notices⟩ : Desk).disk.read s.path = .ok content :=
        hRead.trans hFound
      cases hSnapshot : Snapshot.ofArtifact content s.room with
      | ok k =>
          rw [read_of_ofArtifact hThere hSnapshot] at hNone
          cases hNone
      | error error =>
          by_cases hFatal :
              error = .infiniteNumber ∨ error = .tooDeep
          · rw [read_of_fatal hThere hSnapshot hFatal] at hNone
            cases hNone
          · rw [read_of_unusable hThere hSnapshot hFatal] at hNone
            rw [read_of_unusable hStill hSnapshot hFatal]
            exact hDiscard _ notices more hNone

/- Without an artifact there is nothing to read. -/
theorem Clear.offersNothing_of_absent
    (hClear : s.Clear d place)
    (hAbsent : d.node? (place ++ [s.key ++ ".json"]) = none) :
    s.OffersNothing d := by
  have hRead : d.read s.path = .error .noEntry := by
    unfold Disk.read path
    rw [hClear.locate_fileIn hKey (by decide), hAbsent]
  intro notices
  refine ⟨notices, ?_⟩
  unfold read
  rw [Work.bind_of_ok (Work.get_eq _), hRead]
  rfl

/- What is in the artifact stays when the lock is opened. -/
theorem Clear.read_openAppending
    {e : Disk}
    {mtime : Int}
    (hClear : s.Clear d place)
    (hOpen : d.openAppending s.lockPath mtime = .ok e) :
    e.read s.path = d.read s.path := by
  have hThere :=
    hClear.of_refiled (hClear.openAppending hKey hOpen)
  unfold Disk.read path
  rw [hThere.locate_fileIn hKey (by decide),
    hClear.locate_fileIn hKey (by decide),
    hClear.node?_openAppending hKey hOpen]

/- If nothing is read, a search ends with the lock to build. -/
theorem Clear.exists_seek
    {desk : Desk}
    (hClear : s.Clear desk.disk place)
    (hNothing : s.OffersNothing desk.disk)
    (hFree : s.IsFree desk.disk place ".json.lock")
    (hCanTell : s.CanTell) :
    ∃ final,
      s.seek Others.absent desk =
        .ok (.inr ⟨s.lockPath, true, some .exclusive⟩) final ∧
      desk.disk.openAppending s.lockPath Desk.ownTime =
        .ok final.disk := by
  have hWaiting :
      s.isDebug = true →
        (Notice.waiting s.lockPath).check = .ok () := by
    rw [check_waiting_eq hKey]
    exact hCanTell
  have hBuilding :
      s.isDebug = true →
        (Notice.building s.path).check = .ok () := by
    rw [check_building_eq hKey]
    exact hCanTell
  rcases hClear.exists_openAppending hKey hFree Desk.ownTime with
    ⟨after, hOpen⟩
  have hStill : s.OffersNothing after :=
    hNothing.of_read_eq (hClear.read_openAppending hKey hOpen)
  rcases hNothing desk.notices with ⟨first, hFirst⟩
  rcases exists_debug hWaiting ⟨desk.disk, first⟩ with
    ⟨notices, hTold⟩
  have hOpenToo :
      (⟨desk.disk, notices⟩ : Desk).disk.openAppending s.lockPath
        Desk.ownTime = .ok after :=
    hOpen
  have hShared := acquire_of_openAppending hOpenToo .shared
  rcases hStill notices with ⟨second, hSecond⟩
  -- The lock that is open is only held in another mode.
  have hExclusive :
      Lock.acquire ⟨s.lockPath, true, none⟩ .exclusive
          Others.absent ⟨after, second⟩ =
        .ok ⟨s.lockPath, true, some .exclusive⟩
          ⟨after, second⟩ :=
    acquire_of_open _ .exclusive _
  rcases hStill second with ⟨third, hThird⟩
  rcases exists_debug hBuilding ⟨after, third⟩ with
    ⟨more, hToldToo⟩
  refine ⟨⟨after, more⟩, ?_, hOpen⟩
  unfold seek
  rw [Work.bind_of_ok hFirst]
  dsimp only
  rw [Work.bind_of_ok hTold, Work.bind_of_ok hShared,
    Work.bind_of_ok hSecond]
  dsimp only
  unfold Lock.release
  rw [Work.bind_of_ok hExclusive, Work.bind_of_ok hThird]
  dsimp only
  rw [Work.bind_of_ok hToldToo]
  rfl

end Store

end SymbolAtlas
