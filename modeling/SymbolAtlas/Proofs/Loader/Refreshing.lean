import SymbolAtlas.Proofs.Index.Settling
import SymbolAtlas.Proofs.Index.Twins
import SymbolAtlas.Proofs.Loader.Mirror
import SymbolAtlas.Proofs.Store.Room

/-
  Refreshing twice.

  A refresh that succeeds leaves an artifact that is settled: it
  records the sources at their times. The next refresh loads it,
  scans no file and writes the same bytes again, whatever was in
  the cache directory before the first one.

  Key definitions:
    * `Loader.Attached`, `Loader.Refreshed`
    * `Loader.KeepsSources`
  Key theorems:
    * `Loader.ends_refresh_settled`
    * `Loader.refresh_of_settled`
    * `Loader.refresh_twice`
-/

------------------------------------------------------------
-- After a Refresh
------------------------------------------------------------

namespace SymbolAtlas

namespace Loader

/-
  A loader that works where it began: at most the files of the
  store have changed.
-/
structure Attached
    (s : Store)
    (place : Place)
    (c : Index.Context)
    (l : Loader) : Prop where
  clear : s.Clear c.disk place
  housed : Housed s place l
  settings : l.settings = c.settings
  strict : l.strict = c.strict
  refiled : s.Refiled place c.disk l.desk.disk

/-
  The artifact is the text of what is known, which is settled,
  and it can be loaded and written again.
-/
structure Refreshed
    (s : Store)
    (place : Place)
    (c : Index.Context)
    (l : Loader) : Prop
    extends Attached s place c l where
  canTell : s.CanTell
  room : s.HasRoom l.desk.disk place
  writable : l.index.known.isWritable = true
  artifact :
    s.HasArtifact l.desk.disk place
      l.index.known.artifact.toUTF8
  settled : Index.IsSettled c l.index.known
  whole : Index.IsWhole c

variable {s : Store} {place : Place} {c : Index.Context}
variable {l m : Loader}

theorem Attached.context_eq
    (hAttached : Attached s place c l) :
    l.context = { c with disk := l.desk.disk } := by
  unfold context
  rw [hAttached.settings, hAttached.strict]

theorem Attached.of_refiled
    (hAttached : Attached s place c l)
    (hSettings : m.settings = l.settings)
    (hStrict : m.strict = l.strict)
    (hRefiled : s.Refiled place l.desk.disk m.desk.disk) :
    Attached s place c m where
  clear := hAttached.clear
  housed := hAttached.housed.of_refiled hSettings hRefiled
  settings := hSettings.trans hAttached.settings
  strict := hStrict.trans hAttached.strict
  refiled := hAttached.refiled.trans hRefiled

/- Work on the index leaves the loader where it is. -/
theorem Attached.withIndex
    (hAttached : Attached s place c l)
    (i : Index) :
    Attached s place c (l.withIndex i) :=
  hAttached.of_refiled rfl rfl (.refl s place l.desk.disk)

/- Work on the session changes nothing of it. -/
theorem Refreshed.withIndex
    (hRefreshed : Refreshed s place c l)
    {i : Index}
    (hKnown : i.known = l.index.known) :
    Refreshed s place c (l.withIndex i) where
  toAttached := hRefreshed.toAttached.withIndex i
  canTell := hRefreshed.canTell
  room := hRefreshed.room
  writable := (congrArg Snapshot.isWritable hKnown).trans
    hRefreshed.writable
  artifact := by
    change s.HasArtifact l.desk.disk place i.known.artifact.toUTF8
    rw [hKnown]
    exact hRefreshed.artifact
  settled := by
    change Index.IsSettled c i.known
    rw [hKnown]
    exact hRefreshed.settled
  whole := hRefreshed.whole

/- There was room where the loader began. -/
theorem Attached.hasRoom
    (hAttached : Attached s place c l)
    (hRoom : s.HasRoom l.desk.disk place) :
    s.HasRoom c.disk place :=
  (hAttached.clear.hasRoom_iff hAttached.refiled).mp hRoom

/- What is known is settled where it began, if there is room. -/
def Settles
    (s : Store)
    (place : Place)
    (c : Index.Context)
    (k : Snapshot) : Prop :=
  s.HasRoom c.disk place →
    Index.IsSettled c k ∧ Index.IsWhole c

/-
  What was saved is refreshed, if it is settled and there was
  room for it.
-/
theorem Attached.refreshed
    (hAttached : Attached s place c l)
    (hCanTell : s.CanTell)
    (hSettles : Settles s place c l.index.known)
    {desk : Desk}
    (hRoom : s.HasRoom l.desk.disk place)
    (hSaved :
      s.Saved place l.index.known l.desk.disk desk.disk) :
    Refreshed s place c { l with desk := desk } where
  toAttached := hAttached.of_refiled rfl rfl hSaved.refiled
  canTell := hCanTell
  room :=
    (hAttached.housed.clear.hasRoom_iff hSaved.refiled).mpr hRoom
  writable := hSaved.writable
  artifact := hSaved.artifact
  settled := (hSettles (hAttached.hasRoom hRoom)).1
  whole := (hSettles (hAttached.hasRoom hRoom)).2

end Loader

end SymbolAtlas

------------------------------------------------------------
-- The First Refresh
------------------------------------------------------------

namespace SymbolAtlas

namespace Loader

/-
  The directory of the store holds no source, whatever files the
  store has in it.
-/
def HoldsNoSource
    (s : Store)
    (place : Place)
    (c : Index.Context) : Prop :=
  ∀ d, s.Refiled place c.disk d →
    Sources.AreOutside d place c.settings

/- Files of the store come and go without touching a source. -/
def KeepsSources
    (s : Store)
    (place : Place)
    (c : Index.Context) : Prop :=
  s.HasRoom c.disk place →
    ∀ d, s.Refiled place c.disk d →
      Index.SameSources { c with disk := d } c

variable {s : Store} {place : Place} {c : Index.Context}

/- A directory without sources keeps those that are elsewhere. -/
theorem HoldsNoSource.keepsSources
    {l : Loader}
    (hNone : HoldsNoSource s place l.context)
    (hHoused : Housed s place l)
    (hSound : l.desk.disk.IsSound) :
    KeepsSources s place l.context := by
  intro hRoom d hRefiled
  have hTwins : Disk.Twins place l.desk.disk d :=
    hRoom.twins hHoused.not_mem_key hHoused.clear hHoused.tree
      hSound hRefiled
  have hHere := hNone _ (.refl s place l.desk.disk)
  have hThere := hNone d hRefiled
  have hWhole :
      Index.IsWhole { l.context with disk := d } ↔
        Index.IsWhole l.context :=
    ⟨Index.isWhole_of_twins hTwins.symm hThere,
      Index.isWhole_of_twins hTwins hHere⟩
  refine ⟨hWhole, fun hBegun path mtime => ⟨?_, ?_⟩⟩
  · rintro ⟨source, hSource, hSame⟩
    exact ⟨source, Index.mem_sourcesOf_of_twins hTwins.symm hThere
      hHere (hWhole.mpr hBegun) hSource, hSame⟩
  · rintro ⟨source, hSource, hSame⟩
    exact ⟨source, Index.mem_sourcesOf_of_twins hTwins hHere
      hThere hBegun hSource, hSame⟩

/- There is none if roots and files are all files elsewhere. -/
theorem holdsNoSource_of_named
    {l : Loader}
    (hHoused : Housed s place l)
    (hSound : l.desk.disk.IsSound)
    (hRoom : s.HasRoom l.desk.disk place)
    (hNamed :
      ∀ item ∈ l.settings.roots ++ l.settings.files,
        ∃ path names content mtime,
          l.settings.resolvePath l.desk.disk item = .ok path ∧
          l.desk.disk.locate true path =
            .ok ⟨names, some (.file content mtime)⟩ ∧
          ¬ place <+: names) :
    HoldsNoSource s place l.context := by
  intro d hRefiled
  have hTwins : Disk.Twins place l.desk.disk d :=
    hRoom.twins hHoused.not_mem_key hHoused.clear hHoused.tree
      hSound hRefiled
  apply Sources.areOutside_of_named
  intro item hItem
  rcases hNamed item hItem with
    ⟨path, names, content, mtime, hPath, hLocate, hOutside⟩
  have hStat : l.desk.disk.stat path = .ok ⟨false, mtime⟩ := by
    unfold Disk.stat
    rw [hLocate]
  have hBeside : l.desk.disk.IsOutside place path := by
    intro found hFound
    rw [hLocate] at hFound
    cases hFound
    exact hOutside
  exact ⟨path, mtime,
    (Sources.resolvePath_of_twins hTwins item).trans hPath,
    hTwins.toSameOutside.stat_eq hStat (.inr hBeside),
    hTwins.toSameOutside.isOutside hBeside⟩

variable (hSources : KeepsSources s place c)

include hSources

/- What a rebuild leaves behind is settled where it began. -/
theorem settles_of_rebuilt
    {l : Loader}
    (hAttached : Attached s place c l)
    {i : Index}
    {start : Index}
    (hRebuild : Index.rebuild l.context start = .ok () i) :
    Settles s place c i.known := by
  intro hRoom
  have hSame := hSources hRoom l.desk.disk hAttached.refiled
  rw [← hAttached.context_eq] at hSame
  have hWhole : Index.IsWhole l.context :=
    (Index.rebuild_isOk_iff.mp ⟨i, hRebuild⟩).2
  exact ⟨(Index.settled_of_rebuild hRebuild).of_sameSources hWhole
    hSame.symm, hSame.whole.mp hWhole⟩

omit hSources in
/- A search leaves the loader attached, and shows what is needed. -/
theorem ends_seek_attached :
    Work.Ends
      (fun l => Attached s place c l ∧ l.index = {})
      (onDesk (s.seek Others.absent))
      fun found l =>
        (Attached s place c l ∧ l.index = {}) ∧ s.CanTell ∧
        ∀ lock, found = .inr lock →
          s.IsFree l.desk.disk place ".json.lock" := by
  rintro l found m ⟨hAttached, hFresh⟩ hRun
  rcases exists_of_onDesk_eq_ok hRun with ⟨desk, hSeek, rfl⟩
  have hKey := hAttached.housed.not_mem_key
  have hClear := hAttached.housed.clear
  have hStart : s.Refiles place l.desk.disk l.desk :=
    ⟨hClear, .refl s place l.desk.disk⟩
  rcases Store.ends_seek hKey l.desk found desk hStart hSeek with
    ⟨hDesk, -⟩
  rcases Store.ends_seek_room hKey l.desk found desk hStart hSeek
    with ⟨hCanTell, hLock⟩
  refine ⟨⟨hAttached.of_refiled rfl rfl hDesk.2, hFresh⟩,
    hCanTell, ?_⟩
  intro lock hFound
  exact (hClear.isFree_iff hDesk.2 _).mpr (hLock lock hFound)

/- What is built is settled. -/
theorem ends_build_settled :
    Work.Ends
      (fun l =>
        Attached s place c l ∧
          s.IsFree l.desk.disk place ".json.lock")
      build
      fun k l =>
        l.index.known = k ∧ Attached s place c l ∧
        s.IsFree l.desk.disk place ".json.lock" ∧
        Settles s place c k := by
  rintro l k m ⟨hAttached, hLock⟩ hRun
  unfold build at hRun
  rcases Work.exists_of_bind_eq_ok hRun with
    ⟨_, middle, hScan, hGet⟩
  rcases exists_of_onIndex_eq_ok hScan with ⟨i, hWork, rfl⟩
  cases hGet
  rw [Index.clear_then] at hWork
  have hSettles : Settles s place c i.known :=
    settles_of_rebuilt hSources hAttached hWork
  exact ⟨rfl, hAttached.withIndex i, hLock, hSettles⟩

omit hSources in
/- What is saved under the lock is refreshed. -/
theorem ends_saveWith_settled
    (lock : Lock)
    (k : Snapshot)
    (hCanTell : s.CanTell) :
    Work.Ends
      (fun l =>
        l.index.known = k ∧ Attached s place c l ∧
        s.IsFree l.desk.disk place ".json.lock" ∧
        Settles s place c k)
      (onDesk (s.saveWith lock k))
      fun _ l => l.index.known = k ∧ Refreshed s place c l := by
  rintro l value m ⟨rfl, hAttached, hLock, hSettles⟩ hRun
  rcases exists_of_onDesk_eq_ok hRun with ⟨desk, hSave, rfl⟩
  have hKey := hAttached.housed.not_mem_key
  have hClear := hAttached.housed.clear
  have hRoom : s.HasRoom l.desk.disk place := by
    unfold Store.saveWith at hSave
    split at hSave
    · exact hClear.hasRoom_of_write hKey hLock hSave
    · exact hClear.hasRoom_of_save hKey hSave
  exact ⟨rfl, hAttached.refreshed hCanTell hSettles hRoom
    (hClear.saved_of_saveWith hKey hSave)⟩

/-
  After the first load all is scanned and saved, or there is a
  refresh to come.
-/
theorem ends_loadCache_settled :
    Work.Ends
      (fun l => Attached s place c l ∧ l.index = {}) loadCache
      fun _ l =>
        Attached s place c l ∧ s.CanTell ∧
        (l.index.session.refreshed = true →
          Refreshed s place c l) := by
  have hLoad :
      Work.Ends
        (fun l => Attached s place c l ∧ l.index = {})
        (s.load Others.absent onDesk build)
        fun k l =>
          Attached s place c l ∧ s.CanTell ∧
          (l.index.session.refreshed = true →
            l.index.known = k ∧ Refreshed s place c l) := by
    unfold Store.load
    refine ends_seek_attached.bind fun found => ?_
    cases found with
    | inl k =>
        apply Work.ends_pure
        rintro l ⟨⟨hAttached, hFresh⟩, hCanTell, -⟩
        refine ⟨hAttached, hCanTell, ?_⟩
        intro hRefreshed
        rw [hFresh] at hRefreshed
        cases hRefreshed
    | inr lock =>
        rintro l k m ⟨⟨hAttached, -⟩, hCanTell, hLock⟩ hRun
        have hBuilt :
            Work.Ends
              (fun l =>
                Attached s place c l ∧
                  s.IsFree l.desk.disk place ".json.lock")
              (build >>= fun k =>
                onDesk (s.saveWith lock k) >>= fun _ => pure k)
              fun k l =>
                l.index.known = k ∧ Refreshed s place c l :=
          (ends_build_settled hSources).bind fun k =>
            (ends_saveWith_settled lock k hCanTell).bind fun _ =>
              Work.ends_pure fun _ hDone => hDone
        rcases hBuilt l k m ⟨hAttached, hLock lock rfl⟩ hRun with
          ⟨hKnown, hDone⟩
        exact ⟨hDone.toAttached, hCanTell, fun _ =>
          ⟨hKnown, hDone⟩⟩
  rintro l value m ⟨hAttached, hFresh⟩ hRun
  have hNot : ¬ l.index.IsLoaded := by
    rw [hFresh]
    exact Bool.false_ne_true
  rw [loadCache_of_not_loaded hAttached.housed.store hNot] at hRun
  rcases Work.exists_of_bind_eq_ok hRun with
    ⟨k, loaded, hLoaded, hRest⟩
  rcases hLoad l k loaded ⟨hAttached, hFresh⟩ hLoaded with
    ⟨hStill, hCanTell, hRefreshed⟩
  cases hRest
  refine ⟨(hStill.withIndex _).withIndex _, hCanTell, ?_⟩
  intro hScanned
  rcases hRefreshed hScanned with ⟨hKnown, hDone⟩
  exact (hDone.withIndex hKnown.symm).withIndex rfl

/- A refresh that succeeds leaves a settled artifact. -/
theorem ends_refresh_settled :
    Work.Ends
      (fun l => Attached s place c l ∧ l.index = {}) refresh
      fun _ l => Refreshed s place c l := by
  unfold refresh
  refine (ends_loadCache_settled hSources).bind fun _ => ?_
  refine Work.ends_get.bind fun l => ?_
  split
  · rintro state value m ⟨rfl, hAttached, hCanTell, -⟩ hRun
    rcases Work.exists_of_bind_eq_ok hRun with
      ⟨_, scanned, hScan, hRest⟩
    rcases exists_of_onIndex_eq_ok hScan with ⟨i, hRebuild, rfl⟩
    have hSettles :=
      settles_of_rebuilt hSources hAttached hRebuild
    rcases Work.exists_of_bind_eq_ok hRest with
      ⟨_, saved, hSave, hMark⟩
    have hStill := hAttached.withIndex i
    unfold save at hSave
    rw [Work.bind_of_ok hStill.housed.store,
      Work.bind_of_ok (Work.get_eq _)] at hSave
    rcases exists_of_onDesk_eq_ok hSave with ⟨desk, hDesk, rfl⟩
    have hKey := hStill.housed.not_mem_key
    have hClear := hStill.housed.clear
    cases hMark
    exact (hStill.refreshed hCanTell hSettles
      (hClear.hasRoom_of_save hKey hDesk)
      (hClear.saved_of_save hKey hDesk)).withIndex rfl
  · next hScanned =>
      apply Work.ends_pure
      rintro state ⟨rfl, -, -, hRefreshed⟩
      exact hRefreshed (by simpa using hScanned)

end Loader

end SymbolAtlas

------------------------------------------------------------
-- The Next Refresh
------------------------------------------------------------

namespace SymbolAtlas

namespace Loader

variable {s : Store} {place : Place} {c : Index.Context}
variable {l : Loader}

theorem onDesk_of_ok
    {α : Type}
    {w : Desk.Work α}
    {value : α}
    {desk : Desk}
    (hWork : w l.desk = .ok value desk) :
    onDesk w l = .ok value { l with desk := desk } := by
  unfold onDesk
  rw [hWork]

/- A loader where there is room saves what can be written. -/
theorem exists_save_eq
    (hHoused : Housed s place l)
    (hRoom : s.HasRoom l.desk.disk place)
    (hWritable : l.index.known.isWritable = true) :
    ∃ desk,
      save l = .ok () { l with desk := desk } ∧
      s.Saved place l.index.known l.desk.disk desk.disk := by
  have hKey := hHoused.not_mem_key
  rcases hHoused.clear.exists_save hKey hRoom hWritable with
    ⟨desk, hDesk⟩
  refine ⟨desk, ?_, hHoused.clear.saved_of_save hKey hDesk⟩
  unfold save
  rw [Work.bind_of_ok hHoused.store,
    Work.bind_of_ok (Work.get_eq l)]
  exact onDesk_of_ok hDesk

/- A new loader knows what the artifact says, once it is loaded. -/
theorem exists_loadCache_eq
    {k : Snapshot}
    (hHoused : Housed s place l)
    (hFresh : l.index = {})
    (hCanTell : s.CanTell)
    (hOffers : s.Offers l.desk.disk place k) :
    ∃ m,
      loadCache l = .ok () m ∧
      m.context = l.context ∧
      Housed s place m ∧
      m.index =
        { known := k, session := { cacheLoaded := true } } := by
  have hNot : ¬ l.index.IsLoaded := by
    rw [hFresh]
    exact Bool.false_ne_true
  rcases loadCache_of_offers hHoused hNot hOffers with
    ⟨notices, hLoad⟩ | ⟨error, hDebug, hCheck, -⟩
  · refine ⟨_, hLoad, rfl, hHoused.of_sameDesk rfl rfl, ?_⟩
    dsimp only
    rw [hFresh]
  · rw [hCanTell hDebug] at hCheck
    cases hCheck

/-
  A loader that finds a settled artifact refreshes it. It scans
  no file and saves the same bytes again.
-/
theorem refresh_of_settled
    {k : Snapshot}
    (hHoused : Housed s place l)
    (hFresh : l.index = {})
    (hCanTell : s.CanTell)
    (hRoom : s.HasRoom l.desk.disk place)
    (hWritable : k.isWritable = true)
    (hArtifact :
      s.HasArtifact l.desk.disk place k.artifact.toUTF8)
    (hSettled : Index.IsSettled l.context k)
    (hWhole : Index.IsWhole l.context) :
    ∃ m,
      refresh l = .ok () m ∧
      m.index.scanned = [] ∧
      s.Clear m.desk.disk place ∧
      s.HasArtifact m.desk.disk place k.artifact.toUTF8 := by
  have hOffers : s.Offers l.desk.disk place k.arranged :=
    ⟨_, hArtifact,
      Snapshot.ofArtifact_artifact hWritable s.room⟩
  rcases exists_loadCache_eq hHoused hFresh hCanTell hOffers with
    ⟨loaded, hLoad, hContext, hStill, hIndex⟩
  have hDisk : loaded.desk.disk = l.desk.disk :=
    congrArg Index.Context.disk hContext
  have hKnown : loaded.index.known = k.arranged := by
    rw [hIndex]
  -- What was loaded is settled, so the rebuild changes nothing.
  have hLoadedSettled :
      Index.IsSettled loaded.context loaded.index.known := by
    rw [hContext, hKnown]
    exact hSettled.of_sameMaps (Snapshot.sameMaps_arranged k)
  have hLoadedWhole : Index.IsWhole loaded.context := by
    rw [hContext]
    exact hWhole
  rcases Index.rebuild_of_settled hLoadedSettled hLoadedWhole with
    ⟨i, hRebuild, hSame, hScanned⟩
  have hMaps : i.known.SameMaps k := by
    rw [hKnown] at hSame
    exact hSame.trans (Snapshot.sameMaps_arranged k)
  -- The same is saved, in whatever order it is kept.
  have hHousedBuilt : Housed s place (loaded.withIndex i) :=
    hStill.of_sameDesk rfl rfl
  have hRoomBuilt :
      s.HasRoom (loaded.withIndex i).desk.disk place := by
    change s.HasRoom loaded.desk.disk place
    rw [hDisk]
    exact hRoom
  have hWritableBuilt : i.known.isWritable = true :=
    Snapshot.isWritable_of_sameMaps hMaps.symm hWritable
  rcases exists_save_eq hHousedBuilt hRoomBuilt hWritableBuilt with
    ⟨desk, hSave, hSaved⟩
  have hMark :
      ∃ m,
        markClean { loaded.withIndex i with desk := desk } =
          .ok () m ∧
        m.index.scanned = i.scanned ∧ m.desk.disk = desk.disk :=
    ⟨_, rfl, rfl, rfl⟩
  rcases hMark with ⟨m, hMark, hNoScan, hFinal⟩
  refine ⟨m, ?_, ?_, ?_, ?_⟩
  · unfold refresh
    rw [Work.bind_of_ok hLoad, Work.bind_of_ok (Work.get_eq _),
      if_pos (by rw [hIndex]; rfl),
      Work.bind_of_ok (onIndex_of_ok hRebuild),
      Work.bind_of_ok hSave]
    exact hMark
  · rw [hNoScan, hScanned, hIndex]
  · rw [hFinal]
    exact hHousedBuilt.clear.of_refiled hSaved.refiled
  · have hBytes :
        i.known.artifact.toUTF8 = k.artifact.toUTF8 :=
      congrArg String.toUTF8 (Snapshot.artifact_eq_of_sameMaps hMaps)
    rw [hFinal, ← hBytes]
    exact hSaved.artifact

/- A loader that starts is new on the disk as it is then. -/
theorem eq_newOn_of_start
    {settings : Settings}
    {desk begun : Desk}
    (hStart : start settings desk = .ok l begun) :
    l = newOn settings begun.disk :=
  eq_of_start hStart

/-
  After a refresh that succeeds, the next loader can be started
  and refreshed. It scans no file, and the artifact has the same
  bytes at the end of the first refresh, at the start of the next
  loader and at the end of its refresh. Whatever was in the
  directory of the store before does not matter, as long as it
  holds no source. The disk may change in between, if the store,
  its files and the sources do not.
-/
theorem refresh_twice
    {settings : Settings}
    {desk begun : Desk}
    {first done : Loader}
    {e : Disk}
    (hStart : start settings desk = .ok first begun)
    (hHoused : Housed s place first)
    (hSound : first.desk.disk.IsSound)
    (hNone : HoldsNoSource s place first.context)
    (hFirst : refresh first = .ok () done)
    (hElsewhere : Elsewhere s place done e)
    (hSources :
      Index.SameSources (newOn settings e).context
        done.context) :
    start settings ⟨e, []⟩ =
      .ok (newOn settings e) ⟨e, []⟩ ∧
    ∃ last content,
      refresh (newOn settings e) = .ok () last ∧
      last.index.scanned = [] ∧
      done.desk.disk.read s.path = .ok content ∧
      e.read s.path = .ok content ∧
      last.desk.disk.read s.path = .ok content := by
  have hNew := eq_newOn_of_start hStart
  have hKeeps := hNone.keepsSources hHoused hSound
  have hAttached : Attached s place first.context first :=
    ⟨hHoused.clear, hHoused, rfl, rfl,
      .refl s place first.desk.disk⟩
  have hDone : Refreshed s place first.context done :=
    ends_refresh_settled hKeeps first () done
      ⟨hAttached, by rw [hNew]; rfl⟩ hFirst
  have hSettings : done.settings = settings := by
    rw [hDone.settings, hNew]
    rfl
  have hKey := hHoused.not_mem_key
  have hNext : Housed s place (newOn settings e) := by
    rw [← hSettings]
    exact hElsewhere.housed.newOn
  have hDirectory :
      ∀ path, settings.cacheDir = some path →
        e.HasDirectory path place := by
    intro path hPath
    have hDir := hNext.cacheDir.symm.trans hPath
    rw [Option.some.injEq] at hDir
    rw [← hDir]
    exact hNext.clear.directory
  have hArtifact :
      s.HasArtifact e place
        done.index.known.artifact.toUTF8 := by
    rcases hDone.artifact with ⟨mtime, hNode⟩
    exact ⟨mtime,
      (hElsewhere.files ".json" (by decide)).trans hNode⟩
  have hRoom : s.HasRoom e place :=
    hDone.room.of_nodes_eq hElsewhere.files
  -- The sources have not changed since the first loader began.
  have hKept :
      Index.SameSources done.context first.context := by
    rw [hDone.context_eq]
    exact hKeeps (hDone.hasRoom hDone.room) _ hDone.refiled
  have hWhole : Index.IsWhole done.context :=
    hKept.whole.mpr hDone.whole
  have hSettled : Index.IsSettled done.context done.index.known :=
    hDone.settled.of_sameSources hDone.whole hKept
  rcases refresh_of_settled hNext rfl hDone.canTell hRoom
      hDone.writable hArtifact
      (hSettled.of_sameSources hWhole hSources)
      (hSources.whole.mpr hWhole) with
    ⟨last, hRefresh, hNoScan, hClear, hStill⟩
  exact ⟨start_eq hDirectory, last, _, hRefresh, hNoScan,
    hDone.housed.clear.read_path hKey hDone.artifact,
    hNext.clear.read_path hKey hArtifact,
    hClear.read_path hKey hStill⟩

theorem refresh_of_succeeds
    (hSucceeds : Call.refresh.succeeds l = true) :
    refresh l = .ok () (Call.refresh.after l) :=
  Call.run_of_succeeds hSucceeds

/- A disk that has not changed has only changed elsewhere. -/
theorem Housed.elsewhere
    (hHoused : Housed s place l) :
    Elsewhere s place l l.desk.disk :=
  ⟨hHoused.of_sameDesk rfl rfl, fun _ _ => rfl⟩

theorem sameSources_newOn
    {settings : Settings}
    (hSettings : l.settings = settings) :
    Index.SameSources (newOn settings l.desk.disk).context
      l.context :=
  .of_eq rfl hSettings.symm

/- A root that is a file, and an artifact that is of no use. -/
def tornSettings : Settings where
  projectDir := "/w"
  roots := ["a.php"]
  cacheDir := some "/w/cache"

def tornStore : Store where
  directory := "/w/cache"
  key := "e79926bbdc21ecf8d599658a97ee57e4"

def tornDisk : Disk where
  nodes := [
    (["w"], .newDirectory),
    (["w", "cache"], .newDirectory),
    (["w", "cache", "e79926bbdc21ecf8d599658a97ee57e4.json"],
      .file "?".toUTF8 500),
    (["w", "a.php"], .file "<?php class X {}".toUTF8 1000)]

theorem torn_run :
    SeenHoused tornStore ["w", "cache"]
      (newOn tornSettings tornDisk) ∧
    Call.refresh.succeeds (newOn tornSettings tornDisk) = true ∧
    SeenHoused tornStore ["w", "cache"]
      (Call.refresh.after (newOn tornSettings tornDisk)) ∧
    (Call.refresh.after
      (newOn tornSettings tornDisk)).settings = tornSettings := by
  decide +kernel

/- The one source is outside, on whatever disk. -/
theorem tornSettings_holdsNoSource :
    HoldsNoSource tornStore ["w", "cache"]
      (newOn tornSettings tornDisk).context := by
  apply holdsNoSource_of_named torn_run.1.housed
    ⟨by decide, by decide⟩ torn_run.1.2.2.2.2.2.2.2
  intro item hItem
  rw [List.mem_singleton.mp hItem]
  refine ⟨"/w/a.php", _, _, _, ?_, rfl, by decide⟩
  rw [← Work.toOption_eq_some_iff]
  decide +kernel

/- What is of no use is replaced, once. -/
theorem torn_artifact_is_refreshed_once :
    ∃ last content,
      refresh (newOn tornSettings
        (Call.refresh.after
          (newOn tornSettings tornDisk)).desk.disk) =
        .ok () last ∧
      last.index.scanned = [] ∧
      (Call.refresh.after
        (newOn tornSettings tornDisk)).desk.disk.read
          tornStore.path = .ok content ∧
      last.desk.disk.read tornStore.path = .ok content := by
  rcases torn_run with
    ⟨hFirst, hRefresh, hDone, hSettings⟩
  have hHoused := hFirst.housed
  have hDirectory :
      ∀ path, tornSettings.cacheDir = some path →
        tornDisk.HasDirectory path ["w", "cache"] := by
    rintro path ⟨⟩
    exact hHoused.clear.directory
  have hStart :
      start tornSettings ⟨tornDisk, []⟩ =
        .ok (newOn tornSettings tornDisk) ⟨tornDisk, []⟩ :=
    start_eq hDirectory
  have hSound : tornDisk.IsSound :=
    ⟨by decide, by decide⟩
  rcases refresh_twice hStart hHoused hSound
      tornSettings_holdsNoSource (refresh_of_succeeds hRefresh)
      hDone.housed.elsewhere (sameSources_newOn hSettings) with
    ⟨-, last, content, hAgain, hNoScan, hBytes, -, hSame⟩
  exact ⟨last, content, hAgain, hNoScan, hBytes, hSame⟩

end Loader

end SymbolAtlas
