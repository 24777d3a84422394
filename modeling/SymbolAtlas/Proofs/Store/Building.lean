import SymbolAtlas.Proofs.Store.Unusable

/-
  Loads that build.

  A load builds if nothing can be read, the lock can be opened,
  and it can be told that it waits. Then it builds once, and
  fails if that fails. Whatever it gives is what the store has.

  Key definitions:
    * `Store.MustBuild`
    * `Store.Caller`, `Store.Caller.load`
    * `Store.Spares`
  Key theorems:
    * `Store.read_cases`, `Store.seek_cases`
    * `Store.load_cases`
    * `Store.load_builds_once`
-/

------------------------------------------------------------
-- Reading and Looking
------------------------------------------------------------

namespace SymbolAtlas

namespace Store

/- On this disk the snapshot is read, whatever was told. -/
def Finds (s : Store) (d : Disk) (k : Snapshot) : Prop :=
  ∀ notices, s.read ⟨d, notices⟩ = .ok (some k) ⟨d, notices⟩

/-
  What makes a load build: there is nothing to read, the lock
  can be opened, and it can be told that it waits for it.
-/
structure MustBuild (s : Store) (desk : Desk) : Prop where
  nothing : ∃ final, s.read desk = .ok none final
  lock :
    ∃ opened,
      desk.disk.openAppending s.lockPath Desk.ownTime =
        .ok opened
  canTell : s.CanTell

variable {s : Store} {desk : Desk}

/- What is not read is discarded, or cannot be told about. -/
theorem discard_cases
    {d : Disk}
    (reason : String)
    (hRead :
      ∀ notices,
        s.read ⟨d, notices⟩ = s.discard reason ⟨d, notices⟩) :
    s.OffersNothing d ∨
    ∃ error, ∀ notices,
      s.read ⟨d, notices⟩ = .error error ⟨d, notices⟩ := by
  simp only [discard_eq] at hRead
  cases hDebug : s.isDebug with
  | false =>
      left
      intro notices
      refine ⟨notices, ?_⟩
      rw [hRead, hDebug]
      rfl
  | true =>
      cases hCheck : (Notice.unusable s.path reason).check with
      | error error =>
          right
          refine ⟨error, fun notices => ?_⟩
          rw [hRead, hDebug, hCheck]
          rfl
      | ok shown =>
          left
          intro notices
          refine ⟨notices ++ [.unusable s.path reason], ?_⟩
          rw [hRead, hDebug, hCheck]
          rfl

theorem read_of_absent
    (hAbsent : desk.disk.read s.path = .error .noEntry) :
    s.read desk = .ok none desk := by
  unfold read
  rw [Work.bind_of_ok (Work.get_eq _), hAbsent]
  rfl

/- Whether something is read depends on the disk alone. -/
theorem read_cases
    (s : Store)
    (d : Disk) :
    (∃ k, s.Finds d k) ∨ s.OffersNothing d ∨
    ∃ error, ∀ notices,
      s.read ⟨d, notices⟩ = .error error ⟨d, notices⟩ := by
  cases hRead : d.read s.path with
  | error fault =>
      right
      by_cases hEntry : fault = .noEntry
      · subst hEntry
        exact .inl fun notices => ⟨notices, read_of_absent hRead⟩
      · refine discard_cases
          (DiskFailure.mk fault s.path none).message
          fun notices => ?_
        unfold read
        rw [Work.bind_of_ok (Work.get_eq _)]
        dsimp only
        rw [hRead]
        simp only
  | ok content =>
      cases hSnapshot : Snapshot.ofArtifact content s.room with
      | ok k =>
          left
          exact ⟨k, fun notices =>
            read_of_ofArtifact hRead hSnapshot⟩
      | error error =>
          right
          by_cases hFatal :
              error = .infiniteNumber ∨ error = .tooDeep
          · right
            exact ⟨error, fun notices =>
              read_of_fatal hRead hSnapshot hFatal⟩
          · exact discard_cases error.reason fun notices =>
              read_of_unusable hRead hSnapshot hFatal

/- The directory is there if the lock can be opened. -/
theorem IsUsable.clear_of_openAppending
    {d e : Disk}
    (hKey : '/' ∉ s.key.toList)
    (hUsable : s.IsUsable d)
    (hOpen :
      d.openAppending s.lockPath Desk.ownTime = .ok e) :
    ∃ place, s.Clear d place := by
  have hLinks := List.forall_mem_map.mp hUsable.links
  exact Store.clear_of_openAppending hKey
    (Disk.grounded_startOf hUsable.cwd s.directory) hLinks hOpen

/-
  A search finds what can be read, or it fails and leaves the
  disk alone, or it ends with the lock to build under.
-/
theorem seek_cases
    (hKey : '/' ∉ s.key.toList)
    (hClear :
      s.MustBuild desk → ∃ place, s.Clear desk.disk place) :
    (¬ s.MustBuild desk ∧
      ((∃ k notices,
        s.Finds desk.disk k ∧
        s.seek Others.absent desk =
          .ok (.inl k) { desk with notices := notices }) ∨
      ∃ error notices,
        s.seek Others.absent desk =
          .error error { desk with notices := notices })) ∨
    s.MustBuild desk ∧
      ∃ final,
        s.seek Others.absent desk =
          .ok (.inr ⟨s.lockPath, true, some .exclusive⟩) final ∧
        desk.disk.openAppending s.lockPath Desk.ownTime =
          .ok final.disk := by
  rcases s.read_cases desk.disk with
    ⟨k, hFinds⟩ | hNothing | ⟨error, hError⟩
  · left
    refine ⟨?_, ?_⟩
    · rintro ⟨⟨final, hNone⟩, -, -⟩
      rw [hFinds desk.notices] at hNone
      cases hNone
    · unfold seek
      rw [Work.bind_of_ok (hFinds desk.notices)]
      dsimp only
      rcases s.debug_cases (.cacheHit s.path) desk with
        ⟨notices, hTold⟩ | ⟨error, -, -, hUntold⟩
      · rw [Work.bind_of_ok hTold]
        exact .inl ⟨k, notices, hFinds, rfl⟩
      · rw [Work.bind_of_error hUntold]
        exact .inr ⟨error, desk.notices, rfl⟩
  · by_cases hMust : s.MustBuild desk
    · right
      rcases hMust.lock with ⟨opened, hOpen⟩
      rcases hClear hMust with ⟨place, hClear⟩
      exact ⟨hMust, hClear.exists_seek hKey hNothing
        (hClear.isFree_of_openAppending hKey hOpen)
        hMust.canTell⟩
    · left
      refine ⟨hMust, Or.inr ?_⟩
      rcases hNothing desk.notices with ⟨first, hFirst⟩
      unfold seek
      rw [Work.bind_of_ok hFirst]
      dsimp only
      rcases s.debug_cases (.waiting s.lockPath)
          ⟨desk.disk, first⟩ with
        ⟨notices, hTold⟩ | ⟨error, -, -, hUntold⟩
      · rw [Work.bind_of_ok hTold]
        have hCanTell : s.CanTell := by
          intro hDebug
          rw [← check_waiting_eq hKey]
          exact check_of_debug hTold hDebug
        rcases acquire_cases s.lockPath .shared
            ⟨desk.disk, notices⟩ with
          ⟨lock, opened, -, hOpen⟩ | ⟨error, hError⟩
        · exact absurd ⟨⟨_, hFirst⟩, ⟨opened, hOpen⟩, hCanTell⟩
            hMust
        · rw [Work.bind_of_error hError]
          exact ⟨error, notices, rfl⟩
      · rw [Work.bind_of_error hUntold]
        exact ⟨error, first, rfl⟩
  · left
    refine ⟨?_, Or.inr ?_⟩
    · rintro ⟨⟨final, hNone⟩, -, -⟩
      rw [hError desk.notices] at hNone
      cases hNone
    · unfold seek
      rw [Work.bind_of_error (hError desk.notices)]
      exact ⟨error, desk.notices, rfl⟩

end Store

end SymbolAtlas

------------------------------------------------------------
-- Callers
------------------------------------------------------------

namespace SymbolAtlas

namespace Store

/-
  Whoever loads: a desk, a state of its own, and how each of its
  builds went.
-/
structure Caller (α : Type) where
  desk : Desk
  own : α
  builds : List (Except Error Snapshot) := []

namespace Caller

variable {α : Type}

def onDesk
    {β : Type}
    (w : Desk.Work β) : EStateM Error (Caller α) β := fun c =>
  match w c.desk with
  | .ok value desk => .ok value { c with desk := desk }
  | .error error desk => .error error { c with desk := desk }

/- The build is done, and it is noted how it went. -/
def noted
    (build : EStateM Error (Desk × α) Snapshot) :
    EStateM Error (Caller α) Snapshot := fun c =>
  match build (c.desk, c.own) with
  | .ok k (desk, own) => .ok k ⟨desk, own, c.builds ++ [.ok k]⟩
  | .error error (desk, own) =>
      .error error ⟨desk, own, c.builds ++ [.error error]⟩

def load
    (s : Store)
    (build : EStateM Error (Desk × α) Snapshot) :
    EStateM Error (Caller α) Snapshot :=
  s.load Others.absent onDesk (noted build)

end Caller

/-
  The build leaves the files of the store alone, and the working
  directory exists if it did.
-/
structure Spares
    {α : Type}
    (s : Store)
    (build : EStateM Error (Desk × α) Snapshot) : Prop where
  files :
    ∀ start, ∀ file ∈ s.files,
      (Work.stateAfter (build start)).1.disk.standing file =
        start.1.disk.standing file
  cwd :
    ∀ start : Desk × α,
      start.1.disk.Grounded start.1.disk.cwd →
        (Work.stateAfter (build start)).1.disk.Grounded
          (Work.stateAfter (build start)).1.disk.cwd

namespace Caller

variable {α β : Type} {c : Caller α} {w : Desk.Work β}

theorem onDesk_of_ok
    {value : β}
    {desk : Desk}
    (hRun : w c.desk = .ok value desk) :
    onDesk w c = .ok value { c with desk := desk } := by
  unfold onDesk
  rw [hRun]

theorem onDesk_of_error
    {error : Error}
    {desk : Desk}
    (hRun : w c.desk = .error error desk) :
    onDesk w c = .error error { c with desk := desk } := by
  unfold onDesk
  rw [hRun]

variable {s : Store}

/-
  A load gives what is read or fails before it builds, or it
  opens the lock, builds and saves.
-/
theorem load_cases
    (hKey : '/' ∉ s.key.toList)
    (hUsable : s.IsUsable c.desk.disk)
    (build : EStateM Error (Desk × α) Snapshot) :
    (¬ s.MustBuild c.desk ∧
      ∃ notices,
        (∃ k,
          s.Finds c.desk.disk k ∧
          load s build c =
            .ok k { c with
              desk := { c.desk with notices := notices } }) ∨
        ∃ error,
          load s build c =
            .error error { c with
              desk := { c.desk with notices := notices } }) ∨
    s.MustBuild c.desk ∧
      ∃ opened,
        c.desk.disk.openAppending s.lockPath Desk.ownTime =
          .ok opened.disk ∧
        load s build c =
          (noted build >>= fun k =>
            onDesk (s.write k) >>= fun _ => pure k)
              { c with desk := opened } := by
  have hClear :
      s.MustBuild c.desk → ∃ place, s.Clear c.desk.disk place :=
    fun hMust => hMust.lock.elim fun _ hOpen =>
      hUsable.clear_of_openAppending hKey hOpen
  unfold load Store.load
  rcases seek_cases hKey hClear with
    ⟨hNot, ⟨k, notices, hFinds, hSeek⟩ | ⟨error, notices, hSeek⟩⟩ |
    ⟨hMust, opened, hSeek, hOpen⟩
  · left
    refine ⟨hNot, notices, Or.inl ⟨k, hFinds, ?_⟩⟩
    rw [Work.bind_of_ok (onDesk_of_ok hSeek)]
    rfl
  · left
    refine ⟨hNot, notices, Or.inr ⟨error, ?_⟩⟩
    rw [Work.bind_of_error (onDesk_of_error hSeek)]
  · right
    refine ⟨hMust, opened, hOpen, ?_⟩
    rw [Work.bind_of_ok (onDesk_of_ok hSeek)]
    rfl

end Caller

end Store

end SymbolAtlas

------------------------------------------------------------
-- At Most One Build
------------------------------------------------------------

namespace SymbolAtlas

/- What stands at a path says whether it is a link. -/
theorem Disk.isLink_of_standing_eq
    {d e : Disk}
    {path : String}
    (hSame : e.standing path = d.standing path)
    (hLink : e.IsLink path) :
    d.IsLink path := by
  rcases hLink with ⟨place, target, hLocate⟩
  have hStanding : e.standing path = .ok (some (.link target)) := by
    unfold standing
    rw [hLocate]
    rfl
  rw [hSame] at hStanding
  unfold standing at hStanding
  cases hFound : d.locate false path with
  | error fault =>
      rw [hFound] at hStanding
      cases hStanding
  | ok found =>
      rw [hFound] at hStanding
      obtain ⟨there, node⟩ := found
      cases hStanding
      exact ⟨there, target, hFound⟩

namespace Store

variable {s : Store} {k : Snapshot} {desk final : Desk}

/- The directory is there if something was written. -/
theorem clear_of_write
    (hKey : '/' ∉ s.key.toList)
    (hCwd : desk.disk.Grounded desk.disk.cwd)
    (hLinks : ∀ file ∈ s.files, ¬ desk.disk.IsLink file)
    (hWrite : s.write k desk = .ok () final) :
    ∃ place, s.Clear desk.disk place := by
  rcases exists_of_write_eq_ok hWrite with
    ⟨written, -, -, hTemp, -, -⟩
  unfold Disk.write at hTemp
  cases hLocate : desk.disk.locate true s.tempPath with
  | error fault =>
      rw [hLocate] at hTemp
      cases hTemp
  | ok found =>
      have hNotLinks := List.forall_mem_map.mp hLinks
      exact clear_of_locate hKey
        (Disk.grounded_startOf hCwd s.directory) hNotLinks
        (by decide) hLocate

theorem Alike.mustBuild_iff
    {t : Store}
    (hAlike : s.Alike t) :
    t.MustBuild desk ↔ s.MustBuild desk := by
  constructor
  · rintro ⟨hNothing, hLock, hCanTell⟩
    rw [hAlike.read_eq] at hNothing
    rw [hAlike.lockPath] at hLock
    exact ⟨hNothing, hLock, hAlike.canTell_iff.mp hCanTell⟩
  · rintro ⟨hNothing, hLock, hCanTell⟩
    rw [← hAlike.read_eq] at hNothing
    rw [← hAlike.lockPath] at hLock
    exact ⟨hNothing, hLock, hAlike.canTell_iff.mpr hCanTell⟩

section

variable {α : Type} {build : EStateM Error (Desk × α) Snapshot}

theorem Alike.spares
    {t : Store}
    (hAlike : s.Alike t)
    (hSpares : s.Spares build) :
    t.Spares build := by
  refine ⟨?_, hSpares.cwd⟩
  rw [hAlike.files_eq]
  exact hSpares.files

/-
  What has come of a load: whether it built, what can be read
  after it, and that an error of the build is its own.
-/
structure LoadedBy
    (s : Store)
    (build : EStateM Error (Desk × α) Snapshot)
    (c final : Caller α) : Prop where
  built : s.MustBuild c.desk → ∃ result, final.builds = [result]
  unbuilt : ¬ s.MustBuild c.desk → final.builds = []
  stored :
    ∀ k, Caller.load s build c = .ok k final →
      ∃ stored,
        s.read final.desk = .ok (some stored) final.desk ∧
        stored.SameMaps k
  failed :
    ∀ error, .error error ∈ final.builds →
      Caller.load s build c = .error error final ∧
      final.desk.disk.standing s.path =
        c.desk.disk.standing s.path

variable {c : Caller α}

theorem Alike.loadedBy
    {t : Store}
    (hAlike : s.Alike t)
    (hLoaded :
      t.LoadedBy build c
        (Work.stateAfter (Caller.load t build c))) :
    s.LoadedBy build c
      (Work.stateAfter (Caller.load s build c)) := by
  have hLoad : Caller.load t build = Caller.load s build :=
    hAlike.load_eq _ _
  rcases hLoaded with ⟨hBuilt, hUnbuilt, hStored, hFailed⟩
  rw [hAlike.mustBuild_iff] at hBuilt hUnbuilt
  rw [hAlike.read_eq] at hStored
  rw [hAlike.path] at hFailed
  rw [hLoad] at hBuilt hUnbuilt hStored hFailed
  exact ⟨hBuilt, hUnbuilt, hStored, hFailed⟩

/- The links are where they were when the build began. -/
theorem Spares.not_isLink
    (hSpares : s.Spares build)
    (start : Desk × α)
    (hLinks : ∀ file ∈ s.files, ¬ start.1.disk.IsLink file) :
    ∀ file ∈ s.files,
      ¬ (Work.stateAfter (build start)).1.disk.IsLink file :=
  fun file hFile hLink =>
    hLinks file hFile
      (Disk.isLink_of_standing_eq
        (hSpares.files start file hFile) hLink)

/-
  What opening the lock leaves for the build: the working
  directory, no links and the artifact.
-/
theorem IsUsable.of_openAppending
    {d e : Disk}
    (hKey : '/' ∉ s.key.toList)
    (hUsable : s.IsUsable d)
    (hOpen :
      d.openAppending s.lockPath Desk.ownTime = .ok e) :
    s.IsUsable e ∧ e.standing s.path = d.standing s.path := by
  rcases hUsable.clear_of_openAppending hKey hOpen with
    ⟨place, hClear⟩
  have hOpened := hClear.openAppending hKey hOpen
  have hThere := hClear.of_refiled hOpened
  refine ⟨⟨(hOpened.links hUsable.tree).1, ?_, ?_⟩,
    (hClear.kept_of_openAppending hKey hOpen).artifact⟩
  · rw [hOpened.ways.cwd]
    exact hUsable.cwd.of_sameWays hOpened.ways
  · refine List.forall_mem_map.mpr fun suffix hSuffix => ?_
    rintro ⟨other, target, hLocate⟩
    rw [hThere.locate_fileIn hKey hSuffix, Except.ok.injEq,
      Disk.Found.mk.injEq] at hLocate
    exact hThere.files suffix hSuffix target hLocate.2

/- If nothing was built, what is given was read at once. -/
theorem loadedBy_of_unbuilt
    (hNot : ¬ s.MustBuild c.desk)
    (hFresh : c.builds = [])
    {notices : List Notice}
    (hLoad :
      (∃ k,
        s.Finds c.desk.disk k ∧
        Caller.load s build c =
          .ok k { c with
            desk := { c.desk with notices := notices } }) ∨
      ∃ error,
        Caller.load s build c =
          .error error { c with
            desk := { c.desk with notices := notices } }) :
    s.LoadedBy build c
      (Work.stateAfter (Caller.load s build c)) := by
  rcases hLoad with ⟨k, hFinds, hLoad⟩ | ⟨error, hLoad⟩
  · rw [hLoad]
    refine ⟨fun hMust => absurd hMust hNot, fun _ => hFresh,
      ?_, ?_⟩
    · intro other hOk
      rw [hLoad] at hOk
      cases hOk
      exact ⟨k, hFinds notices, .refl k⟩
    · intro other hOther
      rw [Work.stateAfter_ok, hFresh] at hOther
      cases hOther
  · rw [hLoad]
    refine ⟨fun hMust => absurd hMust hNot, fun _ => hFresh,
      ?_, ?_⟩
    · intro other hOk
      rw [hLoad] at hOk
      cases hOk
    · intro other hOther
      rw [Work.stateAfter_error, hFresh] at hOther
      cases hOther

/- If the build fails, that is what the load comes to. -/
theorem loadedBy_of_failed
    {error : Error}
    {after : Caller α}
    (hMust : s.MustBuild c.desk)
    (hLoad : Caller.load s build c = .error error after)
    (hBuilds : after.builds = [.error error])
    (hArtifact :
      after.desk.disk.standing s.path =
        c.desk.disk.standing s.path) :
    s.LoadedBy build c after := by
  refine ⟨fun _ => ⟨_, hBuilds⟩, fun hNot => absurd hMust hNot,
    ?_, ?_⟩
  · intro k hOk
    rw [hLoad] at hOk
    cases hOk
  · intro other hOther
    rw [hBuilds, List.mem_singleton] at hOther
    cases hOther
    exact ⟨hLoad, hArtifact⟩

/- If something is built, it is given once it is written. -/
theorem loadedBy_of_built
    {k : Snapshot}
    {after : Caller α}
    (hMust : s.MustBuild c.desk)
    (hBuilds : after.builds = [.ok k])
    (hStored :
      ∀ other, Caller.load s build c = .ok other after →
        ∃ stored,
          s.read after.desk = .ok (some stored) after.desk ∧
          stored.SameMaps other) :
    s.LoadedBy build c after := by
  refine ⟨fun _ => ⟨_, hBuilds⟩, fun hNot => absurd hMust hNot,
    hStored, ?_⟩
  intro error hError
  rw [hBuilds, List.mem_singleton] at hError
  cases hError

/- A load that must build, with a store whose key is one name. -/
theorem loadedBy_of_build
    {opened : Desk}
    (hKey : '/' ∉ s.key.toList)
    (hSpares : s.Spares build)
    (hMust : s.MustBuild c.desk)
    (hFresh : c.builds = [])
    (hUsable : s.IsUsable opened.disk)
    (hArtifact :
      opened.disk.standing s.path = c.desk.disk.standing s.path)
    (hLoad :
      Caller.load s build c =
        (Caller.noted build >>= fun k =>
          Caller.onDesk (s.write k) >>= fun _ => pure k)
            { c with desk := opened }) :
    s.LoadedBy build c
      (Work.stateAfter (Caller.load s build c)) := by
  have hFiles := hSpares.files (opened, c.own)
  have hCwd := hSpares.cwd (opened, c.own) hUsable.cwd
  have hLinks :=
    hSpares.not_isLink (opened, c.own) hUsable.links
  cases hBuild : build (opened, c.own) with
  | error error after =>
      have hNoted :
          Caller.noted build { c with desk := opened } =
            .error error ⟨after.1, after.2, [.error error]⟩ := by
        unfold Caller.noted
        rw [hBuild, hFresh]
        rfl
      rw [Work.bind_of_error hNoted] at hLoad
      rw [hBuild] at hFiles
      have hKept :=
        hFiles s.path (List.mem_map_of_mem (by decide))
      have hLoaded :=
        loadedBy_of_failed hMust hLoad rfl (hKept.trans hArtifact)
      rw [hLoad]
      exact hLoaded
  | ok k after =>
      have hNoted :
          Caller.noted build { c with desk := opened } =
            .ok k ⟨after.1, after.2, [.ok k]⟩ := by
        unfold Caller.noted
        rw [hBuild, hFresh]
        rfl
      rw [Work.bind_of_ok hNoted] at hLoad
      rw [hBuild] at hCwd hLinks
      cases hWrite : s.write k after.1 with
      | error error last =>
          rw [Work.bind_of_error
            (Caller.onDesk_of_error hWrite)] at hLoad
          rw [hLoad]
          refine loadedBy_of_built hMust rfl ?_
          intro other hOk
          rw [hLoad] at hOk
          cases hOk
      | ok value last =>
          rw [Work.bind_of_ok (Caller.onDesk_of_ok hWrite)]
            at hLoad
          rw [hLoad]
          refine loadedBy_of_built hMust rfl ?_
          intro other hOk
          rw [hLoad] at hOk
          cases hOk
          rcases clear_of_write hKey hCwd hLinks hWrite with
            ⟨place, hClear⟩
          have hSaved := hClear.saved_of_write hKey hWrite
          exact ⟨_, hSaved.read_eq hKey hClear,
            Snapshot.sameMaps_arranged _⟩

/-
  A load builds once if it must and never otherwise. If it gives
  a snapshot, that is what is read right after it. If the build
  fails, so does the load, and the artifact is as it was.
-/
theorem load_builds_once
    {desk : Desk}
    (hUsable : s.IsUsable desk.disk)
    (hSpares : s.Spares build)
    (own : α) :
    s.LoadedBy build ⟨desk, own, []⟩
      (Work.stateAfter
        (Caller.load s build ⟨desk, own, []⟩)) := by
  rcases s.exists_alike with ⟨t, hKey, hAlike⟩
  have hUsableToo := hAlike.isUsable hUsable
  have hSparesToo := hAlike.spares hSpares
  have hLoaded :
      t.LoadedBy build ⟨desk, own, []⟩
        (Work.stateAfter
          (Caller.load t build ⟨desk, own, []⟩)) := by
    have hCases :=
      Caller.load_cases (c := ⟨desk, own, []⟩) hKey hUsableToo
        build
    rcases hCases with
      ⟨hNot, notices, hLoad⟩ | ⟨hMust, opened, hOpen, hLoad⟩
    · exact loadedBy_of_unbuilt hNot rfl hLoad
    · rcases hUsableToo.of_openAppending hKey hOpen with
        ⟨hOpened, hArtifact⟩
      exact loadedBy_of_build hKey hSparesToo hMust rfl hOpened
        hArtifact hLoad
  exact hAlike.loadedBy hLoaded

end

/- A build that gives a snapshot spares every store. -/
theorem spares_pure
    (s : Store)
    (k : Snapshot) :
    s.Spares (pure k : EStateM Error (Desk × Unit) Snapshot) :=
  ⟨fun _ _ _ => rfl, fun _ hCwd => hCwd⟩

/- A directory that reads like the end of a tag. -/
def taggedStore : Store where
  directory := "/[/c]"
  key := "k"
  isDebug := true

def taggedDesk : Desk :=
  ⟨{ nodes := [
    (["["], .newDirectory),
    (["[", "c]"], .newDirectory)] }, []⟩

/- The load gives the snapshot. -/
def hasLoaded (s : Store) (k : Snapshot) (desk : Desk) : Bool :=
  match Caller.load s (pure k) ⟨desk, (), []⟩ with
  | .ok other _ => other == k
  | .error _ _ => false

/-
  An absent artifact is built and read back. It is not built if
  all is told and its path cannot be shown, although nothing can
  be read and the lock can be opened.
-/
theorem untold_artifact_is_not_built :
    (∃ loaded result stored,
      Caller.load tellingStore (pure strangeSnapshot)
        ⟨emptyDesk, (), []⟩ = .ok strangeSnapshot loaded ∧
      loaded.builds = [result] ∧
      read tellingStore loaded.desk =
        .ok (some stored) loaded.desk ∧
      stored.SameMaps strangeSnapshot) ∧
    read taggedStore taggedDesk = .ok none taggedDesk ∧
    (∃ opened,
      taggedDesk.disk.openAppending taggedStore.lockPath
        Desk.ownTime = .ok opened) ∧
    (Work.stateAfter
      (Caller.load taggedStore (pure strangeSnapshot)
        ⟨taggedDesk, (), []⟩)).builds = [] := by
  have hAbsent :
      emptyDesk.disk.read (path tellingStore) =
        .error .noEntry := by
    decide +kernel
  have hAbsentToo :
      taggedDesk.disk.read taggedStore.path =
        .error .noEntry := by
    decide +kernel
  have hLock :
      (emptyDesk.disk.openAppending (lockPath tellingStore)
        Desk.ownTime).toOption.isSome = true := by
    decide +kernel
  have hLockToo :
      (taggedDesk.disk.openAppending taggedStore.lockPath
        Desk.ownTime).toOption.isSome = true := by
    decide +kernel
  have hTell : CanTell tellingStore := by
    unfold CanTell
    decide +kernel
  have hUntold :
      (Notice.cacheHit taggedStore.path).check =
        .error .unmatchedTag := by
    decide +kernel
  have hUsable : IsUsable tellingStore emptyDesk.disk :=
    ⟨by decide +kernel, Disk.grounded_nil _, by decide +kernel⟩
  have hUsableToo : IsUsable taggedStore taggedDesk.disk :=
    ⟨by decide +kernel, Disk.grounded_nil _, by decide +kernel⟩
  have hGives : hasLoaded tellingStore strangeSnapshot
      emptyDesk = true := by
    decide +kernel
  have hFirst :=
    load_builds_once hUsable (spares_pure _ strangeSnapshot) ()
  have hSecond :=
    load_builds_once hUsableToo (spares_pure _ strangeSnapshot) ()
  have hOpens {result : Except Fault Disk}
      (hSome : result.toOption.isSome = true) :
      ∃ opened, result = .ok opened := by
    rcases Option.isSome_iff_exists.mp hSome with ⟨opened, hOk⟩
    exact ⟨opened, Work.toOption_eq_some_iff.mp hOk⟩
  refine ⟨?_, read_of_absent hAbsentToo, hOpens hLockToo, ?_⟩
  · rcases hFirst.built ⟨⟨_, read_of_absent hAbsent⟩,
        hOpens hLock, hTell⟩ with
      ⟨result, hBuilds⟩
    unfold hasLoaded at hGives
    cases hLoad :
        Caller.load tellingStore (pure strangeSnapshot)
          ⟨emptyDesk, (), []⟩ with
    | error error loaded =>
        rw [hLoad] at hGives
        cases hGives
    | ok k loaded =>
        rw [hLoad] at hGives hBuilds hFirst
        cases eq_of_beq hGives
        rcases hFirst.stored _ hLoad with ⟨stored, hRead, hSame⟩
        exact ⟨loaded, result, stored, rfl, hBuilds, hRead, hSame⟩
  · apply hSecond.unbuilt
    rintro ⟨-, -, hCanTell⟩
    rw [hCanTell rfl] at hUntold
    cases hUntold

end Store

end SymbolAtlas
