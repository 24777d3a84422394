import SymbolAtlas.Proofs.Index.Agreement
import SymbolAtlas.Proofs.Index.Sessions
import SymbolAtlas.Proofs.Loader.Refreshing

/-
  Joining a chain.

  A loader that joins a chain looks up the stem of every file
  that stands alone. What it hands over is the file that is known
  for the stem, which is the file itself unless a root leads to
  it as well: then it was not scanned as one that stands alone,
  and its stem is known only if it declares it.

  Key definitions:
    * `Loader.Filled`
    * `Loader.pathsAlone`, `Loader.fileFor`
  Key theorems:
    * `Index.lookup_of_settled`
    * `Loader.exists_loadCache_of_nothing`
    * `Loader.Begun.exists_forM`
    * `Loader.register_loads_by_stem`
-/

------------------------------------------------------------
-- Look-Ups Without a Search
------------------------------------------------------------

namespace SymbolAtlas

namespace Index

variable {c : Context} {i : Index} {symbol : String}

/- The file of an entry that is settled is as it was scanned. -/
theorem IsSettled.live_of_entry
    {k : Snapshot}
    (hSettled : IsSettled c k)
    {entry : Entry}
    (hEntry : k.symbols.get? symbol = some entry) :
    c.disk.isFile entry.file = true ∧
    hasDrifted c.disk entry = false := by
  have hRecords : k.Records entry.file entry.mtime :=
    .inr ⟨symbol, hEntry⟩
  rcases (hSettled.recorded _ _).mp hRecords with
    ⟨source, hSource, hPath, hTime⟩
  have hStat :=
    Sources.stat_of_mem_ofSettings (Sources.firsts_subset hSource)
  rw [hPath] at hStat
  refine ⟨Disk.isFile_of_stat hStat, ?_⟩
  have hNow := mtime?_of_mem_sourcesOf hSource
  rw [hPath, hTime] at hNow
  unfold hasDrifted
  simp [hNow]

/- A rebuild that succeeds has scanned everything. -/
theorem refreshed_of_rebuild
    {final : Index}
    (hRebuild : rebuild c i = .ok () final) :
    final.session.refreshed = true := by
  rw [session_of_rebuild hRebuild]

/- A symbol that is not known is counted as missing, or not. -/
theorem answer_of_none
    (hSettled : IsSettled c i.known)
    (hNone : i.known.symbols.get? symbol = none)
    (misses : Int) :
    ∃ final,
      answer c symbol misses none i = .ok none final ∧
      IsSettled c final.known ∧
      final.known.symbols.SameMap i.known.symbols ∧
      i.session.SameScans final.session := by
  cases hAuto : c.settings.autoRebuild with
  | false =>
      refine ⟨i, ?_, hSettled, fun _ => rfl, .refl i.session⟩
      unfold answer
      rw [hAuto]
      rfl
  | true =>
      have hSymbols :
          (i.known.symbols.erase symbol).SameMap
            i.known.symbols := by
        intro other
        rw [Keyed.get?_erase]
        split
        · next hSame => rw [hSame, hNone]
        · rfl
      refine ⟨{ i with
          known :=
            { i.known with
              missing := i.known.missing.insert symbol
                (min (misses + 1) retryLimit)
              symbols := i.known.symbols.erase symbol }
          session := { i.session with dirty := true } },
        ?_, ?_, hSymbols, ⟨rfl, rfl, rfl⟩⟩
      · unfold answer
        rw [hAuto]
        rfl
      · refine ⟨⟨?_, ?_⟩, ?_, ?_⟩
        · simpa only [hSymbols _] using hSettled.oneTime
        · simpa only [Snapshot.Maps, hSymbols _]
            using hSettled.apart
        · simpa only [Snapshot.Records, hSymbols _]
            using hSettled.recorded
        · intro other entry hEntry
          dsimp only at hEntry ⊢
          rw [hSymbols other] at hEntry
          rw [Keyed.get?_insert, if_neg]
          · exact hSettled.disjoint other entry hEntry
          · rintro rfl
            rw [hNone] at hEntry
            cases hEntry

/- A symbol that is known is answered with its file. -/
theorem answer_of_some
    (hSettled : IsSettled c i.known)
    {entry : Entry}
    (hEntry : i.known.symbols.get? symbol = some entry)
    (misses : Int) :
    answer c symbol misses (some entry) i =
      .ok (some (Path.normal entry.file)) i := by
  have hLive : isLive c.disk (some entry) = true :=
    (hSettled.live_of_entry hEntry).1
  have hContains : i.known.missing.contains symbol = false := by
    rw [Bool.eq_false_iff, ne_eq, Keyed.contains_iff,
      hSettled.disjoint symbol entry hEntry]
    simp
  have hHit : hit symbol i = .ok () i := by
    rw [hit_eq, hContains]
    rfl
  unfold answer
  rw [hLive, Bool.not_true, Bool.and_false,
    if_neg Bool.false_ne_true]
  dsimp only
  rw [Work.bind_of_ok hHit]
  rfl

/-
  After a rebuild a look-up answers with what is known. Nothing
  is scanned, and at most a miss is counted.
-/
theorem lookup_of_settled
    (hSettled : IsSettled c i.known)
    (hRefreshed : i.session.refreshed = true)
    (symbol : String) :
    ∃ final,
      lookup c symbol i =
        .ok ((i.known.symbols.get? symbol).map fun entry =>
          Path.normal entry.file) final ∧
      IsSettled c final.known ∧
      final.known.symbols.SameMap i.known.symbols ∧
      i.session.SameScans final.session := by
  have hRescans : ¬ Rescans c i symbol := by
    rintro ⟨-, -, hFirst⟩
    rw [hRefreshed] at hFirst
    cases hFirst
  have hRenews : ∀ entry, ¬ Renews c i symbol entry := by
    rintro entry ⟨-, hEntry, -, hDrifted⟩
    rw [(hSettled.live_of_entry hEntry).2] at hDrifted
    cases hDrifted
  have hAnswers (misses : Int) :
      ∃ final,
        answer c symbol misses (i.known.symbols.get? symbol) i =
          .ok ((i.known.symbols.get? symbol).map fun entry =>
            Path.normal entry.file) final ∧
        IsSettled c final.known ∧
        final.known.symbols.SameMap i.known.symbols ∧
        i.session.SameScans final.session := by
    cases hEntry : i.known.symbols.get? symbol with
    | none => exact answer_of_none hSettled hEntry misses
    | some entry =>
        exact ⟨i, answer_of_some hSettled hEntry misses, hSettled,
          fun _ => rfl, .refl i.session⟩
  by_cases hSearch : MaySearch c i symbol
  · rw [lookup_of_maySearch hSearch, Work.bind_of_ok
      (bringUpToDate_otherwise hSearch hRescans hRenews)]
    exact hAnswers _
  · rw [lookup_of_not_maySearch hSearch]
    split
    · next hMany =>
        have hNone : i.known.symbols.get? symbol = none := by
          rw [Option.eq_none_iff_forall_ne_some]
          intro entry hEntry
          rw [hSettled.disjoint symbol entry hEntry] at hMany
          revert hMany
          decide
        rw [hNone]
        exact ⟨i, rfl, hSettled, fun _ => rfl, .refl i.session⟩
    · exact hAnswers _

end Index

end SymbolAtlas

------------------------------------------------------------
-- The First Load
------------------------------------------------------------

namespace SymbolAtlas

namespace Loader

/-
  A loader that has loaded its cache after a rebuild. The files
  that it knows are those of the snapshot, as they are now.
-/
structure Filled
    (c : Index.Context)
    (k : Snapshot)
    (l : Loader) : Prop where
  context : l.context = c
  isLoaded : l.index.IsLoaded
  refreshed : l.index.session.refreshed = true
  settled : Index.IsSettled c l.index.known
  symbols : l.index.known.symbols.SameMap k.symbols

variable {s : Store} {place : Place} {l r : Loader}

/- What a rebuild of a loader that succeeds has done. -/
theorem exists_of_rebuild
    (hHoused : Housed s place l)
    (hRebuild : rebuild l = .ok () r) :
    s.HasRoom l.desk.disk place ∧
    r.index.known.isWritable = true ∧
    ∃ start i : Index,
      Index.rebuild l.context (start.withoutFiles .empty) =
        .ok () i ∧
      i.known = r.index.known := by
  unfold rebuild at hRebuild
  rcases Work.exists_of_bind_eq_ok hRebuild with
    ⟨_, marked, hMark, hRest⟩
  rcases exists_of_onIndex_eq_ok hMark with ⟨start, -, rfl⟩
  rcases Work.exists_of_bind_eq_ok hRest with
    ⟨k, built, hBuild, hSaveAll⟩
  unfold build at hBuild
  rcases Work.exists_of_bind_eq_ok hBuild with
    ⟨_, middle, hScan, hGet⟩
  rcases exists_of_onIndex_eq_ok hScan with ⟨i, hWork, rfl⟩
  cases hGet
  rw [Index.clear_then] at hWork
  have hStill : Housed s place ((l.withIndex start).withIndex i) :=
    hHoused.of_sameDesk rfl rfl
  have hSome :
      ((l.withIndex start).withIndex i).settings.cacheDir.isSome =
        true := by
    rw [hStill.cacheDir]
    rfl
  rw [Work.bind_of_ok (Work.get_eq _), if_pos hSome] at hSaveAll
  rcases Work.exists_of_bind_eq_ok hSaveAll with
    ⟨_, saved, hSave, hClean⟩
  unfold save at hSave
  rw [Work.bind_of_ok hStill.store,
    Work.bind_of_ok (Work.get_eq _)] at hSave
  rcases exists_of_onDesk_eq_ok hSave with ⟨desk, hDesk, rfl⟩
  cases hClean
  have hKey := hHoused.not_mem_key
  have hRoom := hStill.clear.hasRoom_of_save hKey hDesk
  have hSaved := hStill.clear.saved_of_save hKey hDesk
  exact ⟨hRoom, hSaved.writable, (l.withIndex start).index, i,
    hWork, rfl⟩

/- A load that builds is a search, some building and a save. -/
theorem load_of_built
    {lock : Lock}
    {k : Snapshot}
    {construct : Work Snapshot}
    {searched built saved : Loader}
    (hSeek :
      onDesk (s.seek Others.absent) l = .ok (.inr lock) searched)
    (hBuild : construct searched = .ok k built)
    (hSave : onDesk (s.saveWith lock k) built = .ok () saved) :
    s.load Others.absent onDesk construct l = .ok k saved := by
  unfold Store.load
  rw [Work.bind_of_ok hSeek]
  dsimp only
  rw [Work.bind_of_ok hBuild, Work.bind_of_ok hSave]
  rfl

/- What was loaded is known then. -/
theorem loadCache_of_load
    (hStore : store l = .ok s l)
    (hNot : ¬ l.index.IsLoaded)
    {k : Snapshot}
    {saved : Loader}
    (hLoad : s.load Others.absent onDesk build l = .ok k saved) :
    ∃ m,
      loadCache l = .ok () m ∧
      m.context = saved.context ∧
      m.loaded = saved.loaded ∧
      m.index.known = k ∧
      m.index.session =
        { saved.index.session with cacheLoaded := true } := by
  rw [loadCache_of_not_loaded hStore hNot, Work.bind_of_ok hLoad]
  exact ⟨_, rfl, rfl, rfl, rfl, rfl⟩

theorem build_of_rebuild
    {i : Index}
    (hRebuild :
      Index.rebuild l.context (l.index.withoutFiles .empty) =
        .ok () i) :
    build l = .ok i.known (l.withIndex i) := by
  have hWork :
      (do Index.clear; Index.rebuild l.context : Index.Work Unit)
        l.index = .ok () i := by
    rw [Index.clear_then]
    exact hRebuild
  unfold build
  rw [Work.bind_of_ok (onIndex_of_ok hWork)]
  rfl

/-
  Without an artifact that can be used the first load builds one,
  if a rebuild would succeed and the directory holds no source.
-/
theorem exists_loadCache_of_nothing
    (hHoused : Housed s place l)
    (hFresh : l.index = {})
    (hSound : l.desk.disk.IsSound)
    (hNone : HoldsNoSource s place l.context)
    (hNothing : s.OffersNothing l.desk.disk)
    (hCanTell : s.CanTell)
    (hRebuild : rebuild l = .ok () r) :
    ∃ m,
      loadCache l = .ok () m ∧
      s.Refiled place l.desk.disk m.desk.disk ∧
      m.context = { l.context with disk := m.desk.disk } ∧
      m.loaded = l.loaded ∧
      Filled m.context r.index.known m := by
  have hKey := hHoused.not_mem_key
  have hClear := hHoused.clear
  rcases exists_of_rebuild hHoused hRebuild with
    ⟨hRoom, hWritable, start, i, hWork, hKnown⟩
  -- The lock is opened, which makes its file.
  rcases hClear.exists_seek hKey hNothing (hRoom _ (by decide))
      hCanTell with
    ⟨desk, hSeek, hOpen⟩
  have hLocked := hClear.openAppending hKey hOpen
  have hTwins : Disk.Twins place l.desk.disk desk.disk :=
    hRoom.twins hKey hClear hHoused.tree hSound hLocked
  -- A rebuild finds the same sources as before.
  rcases Index.rebuild_of_twins hTwins
      (hNone _ (.refl s place l.desk.disk)) (hNone _ hLocked)
      hWork l.index with
    ⟨other, hOther, hMaps⟩
  have hScanned : other.session.refreshed = true :=
    Index.refreshed_of_rebuild hOther
  have hBuild := build_of_rebuild (l := { l with desk := desk })
    hOther
  -- What was found is saved, and then known.
  have hMapsToo : other.known.SameMaps r.index.known := by
    rw [← hKnown]
    exact hMaps
  have hHousedToo :
      Housed s place
        (({ l with desk := desk } : Loader).withIndex other) :=
    hHoused.of_refiled rfl hLocked
  rcases hHousedToo.clear.exists_saveWith hKey
      ((hClear.hasRoom_iff hLocked).mpr hRoom)
      (Snapshot.isWritable_of_sameMaps hMapsToo.symm hWritable)
      ⟨s.lockPath, true, some .exclusive⟩ with
    ⟨last, hSaveWith⟩
  have hSaved := hHousedToo.clear.saved_of_saveWith hKey hSaveWith
  have hNot : ¬ l.index.IsLoaded := by
    rw [hFresh]
    exact Bool.false_ne_true
  rcases loadCache_of_load hHoused.store hNot
      (load_of_built (onDesk_of_ok hSeek) hBuild
        (onDesk_of_ok hSaveWith)) with
    ⟨m, hLoad, hContext, hLoaded, hKnows, hSession⟩
  have hDisk : m.desk.disk = last.disk :=
    congrArg Index.Context.disk hContext
  have hRefiled : s.Refiled place l.desk.disk m.desk.disk := by
    rw [hDisk]
    exact hLocked.trans hSaved.refiled
  have hMoved :
      m.context = { l.context with disk := m.desk.disk } := by
    rw [hContext, hDisk]
    rfl
  refine ⟨m, hLoad, hRefiled, hMoved, hLoaded, rfl, ?_, ?_, ?_,
    ?_⟩
  · unfold Index.IsLoaded
    rw [hSession]
  · rw [hSession]
    exact hScanned
  · have hKeeps := hNone.keepsSources hHoused hSound
    have hAttached :
        Attached s place l.context { l with desk := desk } :=
      ⟨hClear, hHoused.of_refiled rfl hLocked, rfl, rfl, hLocked⟩
    rcases settles_of_rebuilt hKeeps hAttached hOther hRoom with
      ⟨hSettled, hWhole⟩
    rw [hKnows, hMoved]
    exact hSettled.of_sameSources hWhole
      (hKeeps hRoom m.desk.disk hRefiled)
  · rw [hKnows]
    exact hMapsToo.1

end Loader

end SymbolAtlas

------------------------------------------------------------
-- Files That Stand Alone
------------------------------------------------------------

namespace SymbolAtlas

namespace Loader

/- The path of a file that stands alone, if there is one. -/
def pathAlone?
    (d : Disk)
    (s : Settings)
    (file : String) : Option String :=
  (s.resolvePath d file).toOption.filter (d.isFile ·)

/- The paths of the files that stand alone and exist, in order. -/
def pathsAlone (d : Disk) (s : Settings) : List String :=
  s.files.filterMap (pathAlone? d s)

/- The file that is known for the stem of a path. -/
def fileFor (k : Snapshot) (path : String) : Option String :=
  (k.symbols.get? (Route.ofText path).stem).map fun entry =>
    Path.normal entry.file

variable {d e : Disk} {settings : Settings} {place : Place}

theorem pathAlone?_eq_some_iff
    {file path : String} :
    pathAlone? d settings file = some path ↔
      settings.resolvePath d file = .ok path ∧
      d.isFile path = true := by
  unfold pathAlone?
  rw [Option.filter_eq_some_iff, Work.toOption_eq_some_iff]

/- A file that stands alone is a source of its settings. -/
theorem exists_source_of_pathAlone?
    {file path : String}
    (hPath : pathAlone? d settings file = some path) :
    ∃ source ∈ (Sources.ofFile d settings file).items,
      source.path = path := by
  rcases pathAlone?_eq_some_iff.mp hPath with ⟨hResolve, hFile⟩
  rcases Disk.isFile_iff.mp hFile with
    ⟨_, content, mtime, hLocate⟩
  have hStat : d.stat path = .ok ⟨false, mtime⟩ := by
    unfold Disk.stat
    rw [hLocate]
  exact ⟨⟨path, mtime, true⟩,
    Sources.mem_ofFile_iff.mpr ⟨hResolve, hStat, rfl⟩, rfl⟩

/- A file that stands alone has one path on both disks. -/
theorem exists_path_of_twins
    (hTwins : Disk.Twins place d e)
    (hWhole : (Sources.ofSettings d settings).failure = none)
    {file : String}
    (hFile : file ∈ settings.files) :
    ∃ path,
      settings.resolvePath d file = .ok path ∧
      settings.resolvePath e file = .ok path := by
  have hEach :=
    (Sources.failure_ofSettings_eq_none_iff.mp hWhole).2 file hFile
  rcases Sources.failure_ofFile_eq_none_iff.mp hEach with
    ⟨path, hPath⟩
  exact ⟨path, hPath,
    (Sources.resolvePath_of_twins hTwins file).trans hPath⟩

theorem pathAlone?_of_twins
    (hTwins : Disk.Twins place d e)
    (hOutside : Sources.AreOutside d place settings)
    (hWhole : (Sources.ofSettings d settings).failure = none)
    {file path : String}
    (hFile : file ∈ settings.files)
    (hPath : pathAlone? d settings file = some path) :
    pathAlone? e settings file = some path := by
  rcases exists_source_of_pathAlone? hPath with
    ⟨source, hSource, rfl⟩
  have hThere := Sources.ofFile_of_twins hTwins
    (hOutside source
      (Sources.mem_ofSettings_of_file hWhole hFile hSource))
    hSource
  rcases Sources.mem_ofFile_iff.mp hThere with
    ⟨hResolve, hStat, -⟩
  exact pathAlone?_eq_some_iff.mpr
    ⟨hResolve, Disk.isFile_of_stat hStat⟩

/- The same files stand alone on both disks. -/
theorem pathAlone?_eq_of_twins
    (hTwins : Disk.Twins place d e)
    (hHere : Sources.AreOutside d place settings)
    (hThere : Sources.AreOutside e place settings)
    (hWhole : (Sources.ofSettings d settings).failure = none)
    {file : String}
    (hFile : file ∈ settings.files) :
    pathAlone? e settings file = pathAlone? d settings file := by
  apply Option.ext
  intro path
  exact ⟨pathAlone?_of_twins hTwins.symm hThere
      (Index.isWhole_of_twins hTwins hHere hWhole) hFile,
    pathAlone?_of_twins hTwins hHere hWhole hFile⟩

end Loader

end SymbolAtlas

------------------------------------------------------------
-- One File After the Other
------------------------------------------------------------

namespace SymbolAtlas

namespace Loader

variable {c : Index.Context} {k : Snapshot} {l m : Loader}

/- What is known for a stem is handed over, and nothing else. -/
theorem Filled.exists_autoload
    (hFilled : Filled c k l)
    (path : String) :
    ∃ after,
      autoload (Route.ofText path).stem l = .ok () after ∧
      Filled c k after ∧
      after.loaded = l.loaded ++ (fileFor k path).toList := by
  have hSettled := hFilled.settled
  rcases Index.lookup_of_settled hSettled hFilled.refreshed
      (Route.ofText path).stem with
    ⟨i, hLookup, hStill, hSymbols, hScans⟩
  have hFile :
      (l.index.known.symbols.get? (Route.ofText path).stem).map
          (fun entry => Path.normal entry.file) =
        fileFor k path := by
    unfold fileFor
    rw [hFilled.symbols]
  rw [hFile, ← hFilled.context] at hLookup
  have hResolve :
      resolve (Route.ofText path).stem l =
        .ok (fileFor k path) (l.withIndex i) := by
    unfold resolve
    rw [Work.bind_of_ok (loadCache_of_loaded hFilled.isLoaded)]
    exact onIndex_of_ok hLookup
  have hAfter : Filled c k (l.withIndex i) := by
    refine ⟨hFilled.context, ?_, ?_, hStill, fun symbol => ?_⟩
    · exact hScans.cacheLoaded.trans hFilled.isLoaded
    · exact hScans.refreshed.trans hFilled.refreshed
    · exact (hSymbols symbol).trans (hFilled.symbols symbol)
  unfold autoload
  rw [Work.bind_of_ok hResolve]
  cases fileFor k path with
  | none => exact ⟨_, rfl, hAfter, (List.append_nil _).symm⟩
  | some file =>
      refine ⟨_, rfl, ?_, rfl⟩
      exact ⟨hAfter.context, hAfter.isLoaded, hAfter.refreshed,
        hAfter.settled, hAfter.symbols⟩

/- A file is looked up by its stem if it exists. -/
theorem autoloadFile_eq
    {file path : String}
    (hResolve :
      l.settings.resolvePath l.desk.disk file = .ok path) :
    autoloadFile file l =
      (pathAlone? l.desk.disk l.settings file).elim (.ok () l)
        fun path => autoload (Route.ofText path).stem l := by
  unfold autoloadFile pathAlone?
  rw [Work.bind_of_ok (Work.get_eq l), hResolve]
  dsimp only
  cases hFile : l.desk.disk.isFile path with
  | true => simp [Except.toOption, Option.filter, hFile]
  | false =>
      simp only [Except.toOption, Option.filter, hFile,
        Bool.false_eq_true, if_false]
      rfl

/- The first look-up loads the cache. -/
theorem autoload_of_loadCache
    (hLoad : loadCache l = .ok () m)
    (hLoaded : m.index.IsLoaded)
    (symbol : String) :
    autoload symbol l = autoload symbol m := by
  have hResolve : resolve symbol l = resolve symbol m := by
    unfold resolve
    rw [Work.bind_of_ok hLoad,
      Work.bind_of_ok (loadCache_of_loaded hLoaded)]
  unfold autoload
  change (resolve symbol >>= _) l = (resolve symbol >>= _) m
  simp only [bind, EStateM.bind, hResolve]

/- A loader that has not begun, or one that has loaded. -/
def Begun
    (l : Loader)
    (c : Index.Context)
    (k : Snapshot)
    (m : Loader) : Prop :=
  m = l ∨ Filled c k m

section Joining

variable {loaded : Loader}
variable (hLoad : loadCache l = .ok () loaded)
variable (hFilled : Filled c k loaded)
variable (hNew : loaded.loaded = l.loaded)

include hLoad hFilled hNew

/- One file: what is known for its stem is handed over. -/
theorem Begun.exists_autoloadFile
    (hBegun : Begun l c k m)
    {file path : String}
    (hHere :
      l.settings.resolvePath l.desk.disk file = .ok path)
    (hThere : c.settings.resolvePath c.disk file = .ok path)
    (hSame :
      pathAlone? c.disk c.settings file =
        pathAlone? l.desk.disk l.settings file) :
    ∃ after,
      autoloadFile file m = .ok () after ∧
      Begun l c k after ∧
      after.loaded =
        m.loaded ++
          ((pathAlone? l.desk.disk l.settings file).bind
            (fileFor k)).toList := by
  rcases hBegun with rfl | hGoing
  · rw [autoloadFile_eq hHere]
    cases pathAlone? m.desk.disk m.settings file with
    | none => exact ⟨m, rfl, .inl rfl, (List.append_nil _).symm⟩
    | some found =>
        rcases hFilled.exists_autoload found with
          ⟨after, hAfter, hStill, hMore⟩
        refine ⟨after, ?_, .inr hStill, ?_⟩
        · exact (autoload_of_loadCache hLoad hFilled.isLoaded
            _).trans hAfter
        · rw [hMore, hNew]
          rfl
  · have hContext := hGoing.context
    have hSettings : m.settings = c.settings :=
      congrArg Index.Context.settings hContext
    have hDisk : m.desk.disk = c.disk :=
      congrArg Index.Context.disk hContext
    rw [← hSettings, ← hDisk] at hThere hSame
    rw [autoloadFile_eq hThere, hSame]
    cases pathAlone? l.desk.disk l.settings file with
    | none =>
        exact ⟨m, rfl, .inr hGoing, (List.append_nil _).symm⟩
    | some found =>
        rcases hGoing.exists_autoload found with
          ⟨after, hAfter, hStill, hMore⟩
        exact ⟨after, hAfter, .inr hStill, hMore⟩

/- All files, one after the other. -/
theorem Begun.exists_forM
    {files : List String}
    (hResolve :
      ∀ file ∈ files,
        ∃ path,
          l.settings.resolvePath l.desk.disk file = .ok path ∧
          c.settings.resolvePath c.disk file = .ok path)
    (hSame :
      ∀ file ∈ files,
        pathAlone? c.disk c.settings file =
          pathAlone? l.desk.disk l.settings file)
    (hBegun : Begun l c k m) :
    ∃ after,
      files.forM autoloadFile m = .ok () after ∧
      after.loaded =
        m.loaded ++
          (files.filterMap
            (pathAlone? l.desk.disk l.settings)).filterMap
              (fileFor k) := by
  induction files generalizing m with
  | nil => exact ⟨m, rfl, (List.append_nil _).symm⟩
  | cons file rest ih =>
      rw [List.forall_mem_cons] at hResolve hSame
      rcases hResolve.1 with ⟨path, hHere, hThere⟩
      rcases hBegun.exists_autoloadFile hLoad hFilled hNew hHere
          hThere hSame.1 with
        ⟨next, hNext, hStill, hMore⟩
      rcases ih hResolve.2 hSame.2 hStill with
        ⟨after, hAfter, hRest⟩
      refine ⟨after, ?_, ?_⟩
      · rw [Work.forM_cons_of_ok hNext]
        exact hAfter
      · rw [hRest, hMore, List.append_assoc]
        congr 1
        cases hPath : pathAlone? l.desk.disk l.settings file with
        | none => rw [List.filterMap_cons_none hPath]; rfl
        | some found =>
            rw [List.filterMap_cons_some hPath]
            cases hFile : fileFor k found with
            | none =>
                rw [List.filterMap_cons_none hFile]
                simp [hFile]
            | some other =>
                rw [List.filterMap_cons_some hFile]
                simp [hFile]

end Joining

end Loader

end SymbolAtlas

------------------------------------------------------------
-- What Is Handed Over
------------------------------------------------------------

namespace SymbolAtlas

namespace Index

/- A source that stands alone reports its stem. -/
theorem IsClean.reports_stem_of_alone
    {c : Context}
    (hClean : IsClean c)
    {source : Source}
    (hSource : source ∈ sourcesOf c)
    (hAlone : source.alone = true) :
    Reports c source (stemOf source.path) := by
  rcases hClean.scanned source hSource with ⟨result, hReported⟩
  rcases exists_run_of_run hReported with ⟨declared, hSymbols, -⟩
  refine ⟨result, hReported, ?_⟩
  rw [hSymbols, mem_withStem]
  exact .inr ⟨hAlone, rfl⟩

end Index

namespace Loader

open Index

variable {c : Context} {i final : Index} {missing : Keyed Int}

/-
  A file that stands alone is known for its stem exactly if it
  was scanned as such or declares it.
-/
theorem fileFor_eq_some_iff
    (hProper : c.disk.IsProper)
    (hRebuild :
      Index.rebuild c (i.withoutFiles missing) = .ok () final)
    {source : Source}
    (hSource : source ∈ sourcesOf c)
    {file : String}
    (hResolve :
      c.settings.resolvePath c.disk file = .ok source.path) :
    fileFor final.known source.path = some source.path ↔
      source.alone = true ∨
        Reports c source (stemOf source.path) := by
  have hClean :=
    (rebuild_isOk_iff_isClean _ _ _).mp ⟨final, hRebuild⟩
  have hSymbols := (known_of_rebuild hRebuild).1
  have hNormal := Settings.normal_of_resolvePath hProper hResolve
  have hStem :
      stemOf source.path = (Route.ofText source.path).stem := by
    unfold stemOf
    rw [hNormal]
  unfold fileFor
  rw [Option.map_eq_some_iff, ← hStem]
  constructor
  · rintro ⟨entry, hEntry, hFile⟩
    rcases (hSymbols _ _).mp hEntry with
      ⟨other, hOther, hReports, rfl⟩
    have hText : Path.normal other.path = source.path := hFile
    cases hAlone : other.alone with
    | true =>
        -- It stands alone, so its path is the one that was asked.
        rcases exists_file_of_alone hOther hAlone with
          ⟨another, -, hPath⟩
        rw [Settings.normal_of_resolvePath hProper hPath] at hText
        rw [← Sources.eq_of_mem_firsts hOther hSource hText]
        exact .inl hAlone
    | false =>
        cases hSourceAlone : source.alone with
        | true => exact .inl rfl
        | false =>
            have hSame : reported c source = reported c other := by
              unfold reported Scan.ofPath
              rw [hText, hNormal, hAlone, hSourceAlone]
            refine .inr ?_
            unfold Reports
            rw [hSame]
            exact hReports
  · intro hKnown
    have hReports : Reports c source (stemOf source.path) :=
      hKnown.elim (hClean.reports_stem_of_alone hSource) id
    exact ⟨entryOf source,
      (hSymbols _ _).mpr ⟨source, hSource, hReports, rfl⟩,
      hNormal⟩

/- A file that stands alone and exists is one of the sources. -/
theorem exists_source_of_mem_pathsAlone
    (hWhole : IsWhole c)
    {path : String}
    (hPath : path ∈ pathsAlone c.disk c.settings) :
    (∃ file, c.settings.resolvePath c.disk file = .ok path) ∧
    ∃ source ∈ sourcesOf c, source.path = path := by
  rcases List.mem_filterMap.mp hPath with ⟨file, hFile, hAlone⟩
  refine ⟨⟨file, (pathAlone?_eq_some_iff.mp hAlone).1⟩, ?_⟩
  rcases exists_source_of_pathAlone? hAlone with
    ⟨source, hSource, rfl⟩
  by_cases hRooted :
      ∃ root ∈ c.settings.roots,
        ∃ other ∈ (Sources.ofRoot c.disk c.settings root).items,
          other.path = source.path
  · rcases hRooted with ⟨root, hRoot, other, hOther, hSame⟩
    exact ⟨other, (mem_sourcesOf_iff hWhole).mpr
      (.inl ⟨root, hRoot, hOther⟩), hSame⟩
  · refine ⟨source, (mem_sourcesOf_iff hWhole).mpr
      (.inr ⟨⟨file, hFile, hSource⟩, ?_⟩), rfl⟩
    intro root hRoot other hOther hSame
    exact hRooted ⟨root, hRoot, other, hOther, hSame⟩

/-
  All files are handed over exactly if each was scanned as one
  that stands alone or declares its stem.
-/
theorem filterMap_fileFor_eq_iff
    (hProper : c.disk.IsProper)
    (hRebuild :
      Index.rebuild c (i.withoutFiles missing) = .ok () final) :
    (pathsAlone c.disk c.settings).filterMap
        (fileFor final.known) = pathsAlone c.disk c.settings ↔
      ∀ source ∈ sourcesOf c,
        source.path ∈ pathsAlone c.disk c.settings →
          source.alone = true ∨
            Reports c source (stemOf source.path) := by
  have hWhole : IsWhole c :=
    (rebuild_isOk_iff.mp ⟨final, hRebuild⟩).2
  have hEach :
      (pathsAlone c.disk c.settings).filterMap
          (fileFor final.known) = pathsAlone c.disk c.settings ↔
        ∀ path ∈ pathsAlone c.disk c.settings,
          fileFor final.known path = some path := by
    have hMap :=
      List.filterMap_eq_map_iff_forall_eq_some
        (f := fileFor final.known) (g := fun path : String => path)
        (l := pathsAlone c.disk c.settings)
    rwa [List.map_id'] at hMap
  rw [hEach]
  constructor
  · intro hAll source hSource hPath
    rcases (exists_source_of_mem_pathsAlone hWhole hPath).1 with
      ⟨file, hResolve⟩
    exact (fileFor_eq_some_iff hProper hRebuild hSource
      hResolve).mp (hAll source.path hPath)
  · intro hAll path hPath
    rcases exists_source_of_mem_pathsAlone hWhole hPath with
      ⟨⟨file, hResolve⟩, source, hSource, rfl⟩
    exact (fileFor_eq_some_iff hProper hRebuild hSource
      hResolve).mpr (hAll source hSource hPath)

end Loader

end SymbolAtlas

------------------------------------------------------------
-- Joining a Chain
------------------------------------------------------------

namespace SymbolAtlas

namespace Loader

open Index

variable {s : Store} {place : Place} {l r : Loader}

/-
  A new loader without an artifact, whose rebuild would succeed,
  joins a chain. Before that it hands over, for every file that
  stands alone and exists, in order, the file that a rebuild
  knows for its stem. These are the files themselves if and only
  if each of them is no source of a root or declares its stem.
-/
theorem register_loads_by_stem
    {settings : Settings}
    {desk begun : Desk}
    (hStart : start settings desk = .ok l begun)
    (hHoused : Housed s place l)
    (hProper : l.desk.disk.IsProper)
    (hNone : HoldsNoSource s place l.context)
    (hAbsent :
      l.desk.disk.node? (place ++ [s.key ++ ".json"]) = none)
    (hCanTell : s.CanTell)
    (hRebuild : rebuild l = .ok () r)
    (chain : List Hook)
    (atFront : Bool) :
    ∃ m,
      register chain atFront l =
        .ok (if atFront then .autoload :: chain
          else chain ++ [.autoload]) m ∧
      m.loaded =
        (pathsAlone l.desk.disk settings).filterMap
          (fileFor r.index.known) ∧
      (m.loaded = pathsAlone l.desk.disk settings ↔
        ∀ source ∈ sourcesOf l.context,
          source.path ∈ pathsAlone l.desk.disk settings →
            source.alone = true ∨
              Reports l.context source (stemOf source.path)) := by
  have hNew := eq_newOn_of_start hStart
  have hSettings : l.settings = settings := by
    rw [hNew]
    rfl
  have hFresh : l.index = {} := by
    rw [hNew]
    rfl
  have hNothing : l.loaded = [] := by
    rw [hNew]
    rfl
  rcases exists_of_rebuild hHoused hRebuild with
    ⟨hRoom, -, first, i, hWork, hKnown⟩
  have hWhole : IsWhole l.context :=
    (rebuild_isOk_iff.mp ⟨i, hWork⟩).2
  have hOffers :=
    hHoused.clear.offersNothing_of_absent hHoused.not_mem_key
      hAbsent
  rcases exists_loadCache_of_nothing hHoused hFresh hProper.sound
      hNone hOffers hCanTell hRebuild with
    ⟨loaded, hLoad, hRefiled, hContext, hSame, hFilled⟩
  have hTwins : Disk.Twins place l.desk.disk loaded.desk.disk :=
    hRoom.twins hHoused.not_mem_key hHoused.clear hHoused.tree
      hProper.sound hRefiled
  have hResolve :
      ∀ file ∈ l.settings.files,
        ∃ path,
          l.settings.resolvePath l.desk.disk file = .ok path ∧
          loaded.context.settings.resolvePath loaded.context.disk
            file = .ok path := by
    intro file hFile
    rw [hContext]
    exact exists_path_of_twins hTwins hWhole hFile
  have hAlone :
      ∀ file ∈ l.settings.files,
        pathAlone? loaded.context.disk loaded.context.settings
            file =
          pathAlone? l.desk.disk l.settings file := by
    intro file hFile
    rw [hContext]
    exact pathAlone?_eq_of_twins hTwins
      (hNone _ (.refl s place l.desk.disk)) (hNone _ hRefiled)
      hWhole hFile
  have hBegun : Begun l loaded.context r.index.known l :=
    .inl rfl
  rcases hBegun.exists_forM hLoad hFilled hSame hResolve hAlone
    with ⟨m, hForM, hLoaded⟩
  rw [hNothing, List.nil_append] at hLoaded
  have hExact := filterMap_fileFor_eq_iff hProper hWork
  rw [hKnown] at hExact
  rw [← hSettings]
  refine ⟨m, ?_, hLoaded, ?_⟩
  · unfold register
    rw [Work.bind_of_ok (Work.get_eq l), Work.bind_of_ok hForM]
    rfl
  · rw [hLoaded]
    exact hExact

theorem rebuild_of_succeeds
    (hSucceeds : Call.rebuild.succeeds l = true) :
    rebuild l = .ok () (Call.rebuild.after l) :=
  Call.run_of_succeeds hSucceeds

/- A file that stands alone and is a root, and one that is none. -/
def helperSettings : Settings where
  projectDir := "/w"
  roots := ["helpers.php"]
  files := ["helpers.php", "tools.php"]
  cacheDir := some "/w/cache"

def helperStore : Store where
  directory := "/w/cache"
  key := "7bd036678cb49005f417dffdca790a50"

def helperDisk : Disk where
  nodes := [
    (["w"], .newDirectory),
    (["w", "cache"], .newDirectory),
    (["w", "helpers.php"],
      .file "<?php class A {}".toUTF8 1000),
    (["w", "tools.php"], .file "<?php".toUTF8 1000)]

theorem helper_run :
    SeenHoused helperStore ["w", "cache"]
      (newOn helperSettings helperDisk) ∧
    helperDisk.IsTree ∧
    Call.rebuild.succeeds
      (newOn helperSettings helperDisk) = true ∧
    pathsAlone helperDisk helperSettings =
      ["/w/helpers.php", "/w/tools.php"] ∧
    ["/w/helpers.php", "/w/tools.php"].filterMap
      (fileFor
        (Call.rebuild.after
          (newOn helperSettings helperDisk)).index.known) =
      ["/w/tools.php"] := by
  decide +kernel

theorem helperSettings_holdsNoSource :
    HoldsNoSource helperStore ["w", "cache"]
      (newOn helperSettings helperDisk).context := by
  apply holdsNoSource_of_named helper_run.1.housed
    ⟨by decide, by decide⟩ helper_run.1.2.2.2.2.2.2.2
  have hHelpers :
      helperSettings.resolvePath helperDisk "helpers.php" =
        .ok "/w/helpers.php" := by
    rw [← Work.toOption_eq_some_iff]
    decide +kernel
  have hTools :
      helperSettings.resolvePath helperDisk "tools.php" =
        .ok "/w/tools.php" := by
    rw [← Work.toOption_eq_some_iff]
    decide +kernel
  intro item hItem
  change item ∈ ["helpers.php", "helpers.php", "tools.php"]
    at hItem
  simp only [List.mem_cons, List.not_mem_nil, or_false] at hItem
  rcases hItem with rfl | rfl | rfl
  · exact ⟨_, _, _, _, hHelpers, rfl, by decide⟩
  · exact ⟨_, _, _, _, hHelpers, rfl, by decide⟩
  · exact ⟨_, _, _, _, hTools, rfl, by decide⟩

/- The file that is a root as well is not handed over. -/
theorem rooted_helper_is_not_loaded :
    ∃ m,
      register [.host] false (newOn helperSettings helperDisk) =
        .ok [.host, .autoload] m ∧
      m.loaded = ["/w/tools.php"] ∧
      pathsAlone helperDisk helperSettings =
        ["/w/helpers.php", "/w/tools.php"] := by
  rcases helper_run with
    ⟨hSeen, hTree, hRebuild, hPaths, hKnown⟩
  have hHoused := hSeen.housed
  have hDirectory :
      ∀ path, helperSettings.cacheDir = some path →
        helperDisk.HasDirectory path ["w", "cache"] := by
    rintro path ⟨⟩
    exact hHoused.clear.directory
  have hStart :
      start helperSettings ⟨helperDisk, []⟩ =
        .ok (newOn helperSettings helperDisk) ⟨helperDisk, []⟩ :=
    start_eq hDirectory
  have hProper : helperDisk.IsProper :=
    ⟨hTree, ⟨by decide, by decide⟩, by decide⟩
  have hCanTell : helperStore.CanTell := by
    rintro ⟨⟩
  rcases register_loads_by_stem hStart hHoused hProper
      helperSettings_holdsNoSource (by decide) hCanTell
      (rebuild_of_succeeds hRebuild) [.host] false with
    ⟨m, hRegister, hLoaded, -⟩
  refine ⟨m, hRegister, ?_, hPaths⟩
  rw [hLoaded]
  change (pathsAlone helperDisk helperSettings).filterMap _ = _
  rw [hPaths]
  exact hKnown

end Loader

end SymbolAtlas
