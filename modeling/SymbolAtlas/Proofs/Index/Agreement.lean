import SymbolAtlas.Proofs.Index.Completeness
import SymbolAtlas.Proofs.Index.Exact

/-
  Rebuilds against updates.

  Both scan a file, but they find out in different ways whether
  it stands alone: a rebuild asks where it met the file first,
  an update asks for the path of the file. So an update right
  after a rebuild changes nothing if and only if the two agree
  on that, or the stem of the file is declared in it anyway, and
  the notice that the update gives can be shown.

  Key definitions:
    * `Index.UpdatesAlike`
    * `Index.rescanned`
  Key theorems:
    * `Index.standsAlone_of_resolves`
    * `Index.run_of_agrees`
    * `Index.scanAgain_outcomes`
    * `Index.forM_reclaim_of_free`
    * `Index.update_keeps_rebuilt_iff`
-/

------------------------------------------------------------
-- Standing Alone
------------------------------------------------------------

namespace SymbolAtlas

namespace Index

variable {c : Context} {source : Source}

/-
  If all files that stand alone have a path, it can be told
  whether a path is one of theirs.
-/
theorem standsAlone_of_resolves
    (hResolve :
      ∀ file ∈ c.settings.files,
        Sources.FileResolves c.disk c.settings file)
    (path : String) :
    ∃ alone,
      standsAlone c path = .ok alone ∧
      (alone = true ↔
        ∃ file ∈ c.settings.files,
          c.settings.resolvePath c.disk file = .ok path) := by
  unfold standsAlone
  generalize c.settings.files = files at hResolve ⊢
  induction files with
  | nil => exact ⟨false, rfl, by simp⟩
  | cons first rest ih =>
      rw [List.forall_mem_cons] at hResolve
      rcases hResolve with ⟨⟨real, hReal⟩, hRest⟩
      rcases ih hRest with ⟨alone, hAlone, hIff⟩
      cases hPaths :
          rest.mapM (c.settings.resolvePath c.disk) with
      | error error =>
          rw [hPaths] at hAlone
          cases hAlone
      | ok paths =>
          rw [hPaths] at hAlone
          cases hAlone
          refine ⟨(real :: paths).contains path, ?_, ?_⟩
          · rw [List.mapM_cons, hReal, hPaths]
            rfl
          · rw [List.contains_cons, Bool.or_eq_true, hIff,
              List.exists_mem_cons_iff, hReal, beq_iff_eq,
              Except.ok.injEq]
            exact or_congr_left eq_comm

/- A source that stands alone is one of the files that do. -/
theorem exists_file_of_alone
    (hSource : source ∈ sourcesOf c)
    (hAlone : source.alone = true) :
    ∃ file ∈ c.settings.files,
      c.settings.resolvePath c.disk file = .ok source.path := by
  rcases Sources.mem_items_append
      (Sources.firsts_subset hSource) with hRoots | hFiles
  · rcases Sources.mem_items_concat hRoots with
      ⟨list, hList, hItem⟩
    rcases List.mem_map.mp hList with ⟨root, -, rfl⟩
    rw [(Sources.stat_of_mem_ofRoot hItem).2] at hAlone
    cases hAlone
  · rcases Sources.mem_items_concat hFiles with
      ⟨list, hList, hItem⟩
    rcases List.mem_map.mp hList with ⟨file, hFile, rfl⟩
    refine ⟨file, hFile, ?_⟩
    unfold Sources.ofFile at hItem
    cases hPath : c.settings.resolvePath c.disk file with
    | error error =>
        rw [hPath] at hItem
        cases hItem
    | ok path =>
        simp only [hPath, bind, Except.bind, pure,
          Except.pure] at hItem
        cases hStat : c.disk.stat path with
        | error fault => simp [hStat, Sources.ofExcept] at hItem
        | ok stat =>
            rw [hStat] at hItem
            dsimp only at hItem
            split at hItem
            · simp [Sources.ofExcept] at hItem
            · simp only [Sources.ofExcept,
                List.mem_singleton] at hItem
              rw [hItem]

end Index

end SymbolAtlas

------------------------------------------------------------
-- Scanning Alike
------------------------------------------------------------

namespace SymbolAtlas

namespace Index

/-
  An update scans the source as a rebuild does, or its stem is
  reported in any case; and what it tells can be shown.
-/
structure UpdatesAlike (c : Context) (source : Source) : Prop where
  agrees :
    standsAlone c source.path = .ok source.alone ∨
      Reports c source (stemOf source.path)
  shown :
    c.settings.isDebug = true →
      ∀ result, reported c source = .ok result →
        (Notice.updated source.path
          result.symbols.length).check = .ok ()

instance
    (c : Context)
    (source : Source) :
    Decidable (UpdatesAlike c source) :=
  decidable_of_iff
    (((standsAlone c source.path).toOption = some source.alone ∨
        Reports c source (stemOf source.path)) ∧
      (c.settings.isDebug = true →
        ∀ result ∈ (reported c source).toOption,
          (Notice.updated source.path
            result.symbols.length).check.toOption = some ())) (by
    simp only [Work.toOption_eq_some_iff, Option.mem_def]
    constructor
    · rintro ⟨hAgrees, hShown⟩
      exact ⟨hAgrees, hShown⟩
    · rintro ⟨hAgrees, hShown⟩
      exact ⟨hAgrees, hShown⟩)

variable {c : Context} {source : Source}

/- A stem that is declared is not added. -/
theorem withStem_of_mem
    {file : String}
    {alone : Bool}
    {symbols : List String}
    (hStem : stemOf file ∈ symbols) :
    (Scan.ofPath file alone).withStem symbols = symbols := by
  have hDeclared : symbols.contains (stemOf file) = true := by
    simpa using hStem
  change (if alone && !symbols.contains (stemOf file) then _
    else symbols) = symbols
  rw [hDeclared, Bool.not_true, Bool.and_false]
  rfl

/- A scan that works in one way works in the other. -/
theorem exists_run_of_run
    {file : String}
    {alone : Bool}
    {d : Disk}
    {strict : Bool}
    {result : Scan.Result}
    (hRun : (Scan.ofPath file alone).run d strict = .ok result) :
    ∃ declared,
      result.symbols =
        (Scan.ofPath file alone).withStem declared ∧
      ∀ other,
        (Scan.ofPath file other).run d strict =
          .ok { result with
            symbols :=
              (Scan.ofPath file other).withStem declared } := by
  rw [run_eq_withStem] at hRun
  cases hPlain : (Scan.ofPath file false).run d strict with
  | error error =>
      rw [hPlain] at hRun
      cases hRun
  | ok plain =>
      rw [hPlain] at hRun
      cases hRun
      refine ⟨plain.symbols, rfl, ?_⟩
      intro other
      rw [run_eq_withStem, hPlain]
      rfl

/- An update of such a source reports what a rebuild does. -/
theorem run_of_agrees
    {result : Scan.Result}
    {alone : Bool}
    (hReported : reported c source = .ok result)
    (hAlone : standsAlone c source.path = .ok alone)
    (hAgrees :
      standsAlone c source.path = .ok source.alone ∨
        Reports c source (stemOf source.path))
    (hSource : source.alone = true → alone = true) :
    (Scan.ofPath source.path alone).run c.disk c.strict =
      .ok result := by
  by_cases hSame : alone = source.alone
  · rw [hSame]
    exact hReported
  · have hStem : Reports c source (stemOf source.path) := by
      rcases hAgrees with hAgrees | hStem
      · rw [hAlone] at hAgrees
        cases hAgrees
        exact absurd rfl hSame
      · exact hStem
    -- The source is below a root, and declares its stem.
    have hRooted : source.alone = false := by
      by_contra hNot
      have hSourceAlone : source.alone = true := by
        simpa using hNot
      rw [hSource hSourceAlone, hSourceAlone] at hSame
      exact hSame rfl
    unfold reported at hReported
    rcases exists_run_of_run hReported with
      ⟨declared, hSymbols, hRuns⟩
    have hPlain :
        (Scan.ofPath source.path source.alone).withStem declared =
          declared := by
      rw [hRooted]
      rfl
    rcases hStem with ⟨other, hOther, hStem⟩
    rw [show reported c source = .ok result from hReported] at hOther
    cases hOther
    rw [hSymbols, hPlain] at hStem
    rw [hRuns, withStem_of_mem hStem, ← hPlain, ← hSymbols]

end Index

end SymbolAtlas

------------------------------------------------------------
-- Scanning Again
------------------------------------------------------------

namespace SymbolAtlas

namespace Index

/- The index once a file was scanned again and nothing claimed. -/
def rescanned
    (i : Index)
    (file : String)
    (mtime : Int)
    (alone : Bool)
    (result : Scan.Result) : Index :=
  let forgotten := i.forgotten file
  let scanned :=
    { forgotten with
      scanned := forgotten.scanned ++ [Scan.ofPath file alone]
      notices := forgotten.notices ++ result.notices }
  if result.symbols.isEmpty then scanned.notedEmpty file mtime
  else scanned

theorem scanAgain_of_run
    {c : Context}
    {file : String}
    {mtime : Int}
    {alone : Bool}
    {result : Scan.Result}
    (hStat : c.disk.stat file = .ok ⟨false, mtime⟩)
    (hAlone : standsAlone c file = .ok alone)
    (hRun :
      (Scan.ofPath file alone).run c.disk c.strict = .ok result)
    (i : Index) :
    scanAgain c file i =
      .ok (some (mtime, result.symbols))
        (i.rescanned file mtime alone result) := by
  rw [scanAgain_eq, hStat]
  dsimp only
  rw [if_neg Bool.false_ne_true, hAlone]
  dsimp only
  rw [scan_eq, hRun]
  rfl

/-
  A file that is scanned again is forgotten. If it is there and
  can be scanned, its symbols are about to be entered.
-/
theorem scanAgain_outcomes
    (c : Context)
    (file : String)
    (i : Index) :
    (∃ final,
      (scanAgain c file i = .ok none final ∨
        ∃ error, scanAgain c file i = .error error final) ∧
      final.known = (i.forgotten file).known) ∨
    ∃ mtime alone result,
      c.disk.stat file = .ok ⟨false, mtime⟩ ∧
      standsAlone c file = .ok alone ∧
      (Scan.ofPath file alone).run c.disk c.strict = .ok result ∧
      scanAgain c file i =
        .ok (some (mtime, result.symbols))
          (i.rescanned file mtime alone result) := by
  cases hStat : c.disk.stat file with
  | error fault =>
      left
      rw [scanAgain_eq, hStat]
      exact ⟨_, Or.inl rfl, rfl⟩
  | ok stat =>
      obtain ⟨isDirectory, mtime⟩ := stat
      cases isDirectory with
      | true =>
          left
          rw [scanAgain_eq, hStat]
          exact ⟨_, Or.inl rfl, rfl⟩
      | false =>
          cases hAlone : standsAlone c file with
          | error error =>
              left
              rw [scanAgain_eq, hStat]
              dsimp only
              rw [if_neg Bool.false_ne_true, hAlone]
              exact ⟨_, Or.inr ⟨error, rfl⟩, rfl⟩
          | ok alone =>
              cases hRun :
                  (Scan.ofPath file alone).run c.disk
                    c.strict with
              | error error =>
                  left
                  rw [scanAgain_eq, hStat]
                  dsimp only
                  rw [if_neg Bool.false_ne_true, hAlone]
                  dsimp only
                  rw [scan_eq, hRun]
                  exact ⟨_, Or.inr ⟨error, rfl⟩, rfl⟩
              | ok result =>
                  right
                  exact ⟨mtime, alone, result, rfl, rfl, hRun,
                    scanAgain_of_run hStat hAlone hRun i⟩

theorem symbols_forgotten
    (i : Index)
    (file symbol : String)
    (entry : Entry) :
    (i.forgotten file).known.symbols.get? symbol = some entry ↔
      i.known.symbols.get? symbol = some entry ∧
        entry.file ≠ file := by
  simp [forgotten]

section Rescanned

variable (i : Index) (file : String) (mtime : Int)
variable (alone : Bool) (result : Scan.Result)

theorem symbols_rescanned
    (symbol : String)
    (entry : Entry) :
    (i.rescanned file mtime alone result).known.symbols.get?
        symbol = some entry ↔
      i.known.symbols.get? symbol = some entry ∧
        entry.file ≠ file := by
  have hSymbols :
      (i.rescanned file mtime alone result).known.symbols =
        (i.forgotten file).known.symbols := by
    unfold rescanned
    dsimp only
    split <;> rfl
  rw [hSymbols]
  exact symbols_forgotten i file symbol entry

theorem emptyFiles_rescanned
    (path : String) :
    (i.rescanned file mtime alone result).known.emptyFiles.get?
        path =
      if path = file then
        Snapshot.emptyTime result.symbols mtime
      else i.known.emptyFiles.get? path := by
  unfold rescanned Snapshot.emptyTime
  dsimp only
  cases result.symbols with
  | nil =>
      simp only [List.isEmpty_nil, if_true, notedEmpty, forgotten,
        Keyed.get?_insert, Keyed.get?_erase]
      split <;> rfl
  | cons symbol rest =>
      simp only [List.isEmpty_cons, Bool.false_eq_true, if_false,
        forgotten, Keyed.get?_erase, reduceCtorEq]

theorem sameFile_rescanned
    {other : String}
    (hOther : other ≠ file) :
    i.known.SameFile
      (i.rescanned file mtime alone result).known other := by
  refine ⟨?_, ?_⟩
  · intro symbol time
    rw [symbols_rescanned]
    simp [hOther]
  · rw [emptyFiles_rescanned, if_neg hOther]

theorem has_rescanned :
    (i.rescanned file mtime alone result).known.Has file mtime []
      (Snapshot.emptyTime result.symbols mtime) := by
  refine ⟨?_, ?_⟩
  · intro symbol time
    rw [symbols_rescanned]
    simp
  · rw [emptyFiles_rescanned, if_pos rfl]

end Rescanned

/- A symbol that nobody has is entered. -/
theorem reclaim_of_none
    {c : Context}
    {updateOther : String → Work Unit}
    {file : String}
    {mtime : Int}
    {symbol : String}
    {i : Index}
    (hFree : i.known.symbols.get? symbol = none) :
    reclaim c updateOther file mtime symbol i =
      .ok () (i.entered symbol ⟨file, mtime⟩) := by
  have hEntry : entry? symbol i = .ok none i := by
    rw [← hFree]
    rfl
  unfold reclaim
  rw [Work.bind_of_ok hEntry]
  rfl

/- Symbols that nobody has can all be entered. -/
theorem forM_reclaim_of_free
    {c : Context}
    {updateOther : String → Work Unit}
    {file : String}
    {mtime : Int}
    {symbols : List String}
    {i : Index}
    (hNodup : symbols.Nodup)
    (hFree :
      ∀ symbol ∈ symbols,
        i.known.symbols.get? symbol = none) :
    symbols.forM (reclaim c updateOther file mtime) i =
      .ok () (i.enteredAll ⟨file, mtime⟩ symbols) := by
  induction symbols generalizing i with
  | nil => rfl
  | cons first rest ih =>
      have hFirst := hFree first List.mem_cons_self
      rw [Work.forM_cons_of_ok (reclaim_of_none hFirst)]
      rw [List.nodup_cons] at hNodup
      apply ih hNodup.2
      intro symbol hSymbol
      have hNe : symbol ≠ first := by
        rintro rfl
        exact hNodup.1 hSymbol
      simp only [entered, Keyed.get?_insert, if_neg hNe]
      exact hFree symbol (List.mem_cons_of_mem _ hSymbol)

/- An update enters what it finds, and tells so. -/
theorem update_of_run
    {c : Context}
    {file : String}
    {mtime : Int}
    {alone : Bool}
    {result : Scan.Result}
    {i : Index}
    (hStat : c.disk.stat file = .ok ⟨false, mtime⟩)
    (hAlone : standsAlone c file = .ok alone)
    (hRun :
      (Scan.ofPath file alone).run c.disk c.strict =
        .ok result) :
    update c file i =
      (result.symbols.forM
          (reclaim c (updateWithin c i.known.symbols.size) file
            mtime) >>=
        fun _ => debug c (.updated file result.symbols.length))
        (i.rescanned file mtime alone result) :=
  updateWithin_of_some (scanAgain_of_run hStat hAlone hRun i)

/- The loop that a successful update has gone through. -/
theorem exists_loop_of_update
    {c : Context}
    {file : String}
    {mtime : Int}
    {alone : Bool}
    {result : Scan.Result}
    {i final : Index}
    (hStat : c.disk.stat file = .ok ⟨false, mtime⟩)
    (hAlone : standsAlone c file = .ok alone)
    (hRun :
      (Scan.ofPath file alone).run c.disk c.strict = .ok result)
    (hUpdate : update c file i = .ok () final) :
    ∃ middle,
      result.symbols.forM
        (reclaim c (updateWithin c i.known.symbols.size) file
          mtime) (i.rescanned file mtime alone result) =
        .ok () middle ∧
      debug c (.updated file result.symbols.length) middle =
        .ok () final := by
  rw [update_of_run hStat hAlone hRun] at hUpdate
  cases hLoop :
      result.symbols.forM
        (reclaim c (updateWithin c i.known.symbols.size) file
          mtime) (i.rescanned file mtime alone result) with
  | error error middle =>
      rw [Work.bind_of_error hLoop] at hUpdate
      cases hUpdate
  | ok value middle =>
      rw [Work.bind_of_ok hLoop] at hUpdate
      exact ⟨middle, rfl, hUpdate⟩

theorem known_of_debug
    {c : Context}
    {notice : Notice}
    {i final : Index}
    (hTold : debug c notice i = .ok () final) :
    final.known = i.known := by
  have hKnown := known_debug c notice i
  rw [hTold] at hKnown
  exact hKnown

/- Something is told without an error if it can be shown. -/
theorem debug_isOk_iff
    {c : Context}
    {notice : Notice}
    {i : Index} :
    (∃ final, debug c notice i = .ok () final) ↔
      (c.settings.isDebug = true → notice.check = .ok ()) := by
  unfold debug
  cases hDebug : c.settings.isDebug with
  | false =>
      simp only [Bool.false_eq_true, if_false, false_implies,
        iff_true]
      exact ⟨i, rfl⟩
  | true =>
      simp only [if_true, true_implies]
      cases hCheck : notice.check with
      | ok value => exact iff_of_true ⟨_, rfl⟩ rfl
      | error error =>
          refine iff_of_false ?_ (by simp)
          rintro ⟨final, hTold⟩
          cases hTold

end Index

end SymbolAtlas

------------------------------------------------------------
-- Updates After a Rebuild
------------------------------------------------------------

namespace SymbolAtlas

namespace Index

variable {c : Context} {source : Source}

/- An update can tell whether a source stands alone. -/
theorem standsAlone_of_mem_sourcesOf
    (hResolve :
      ∀ file ∈ c.settings.files,
        Sources.FileResolves c.disk c.settings file)
    (hSource : source ∈ sourcesOf c) :
    ∃ alone,
      standsAlone c source.path = .ok alone ∧
      (source.alone = true → alone = true) := by
  rcases standsAlone_of_resolves hResolve source.path with
    ⟨alone, hAlone, hIff⟩
  refine ⟨alone, hAlone, ?_⟩
  intro hSourceAlone
  exact hIff.mpr (exists_file_of_alone hSource hSourceAlone)

/- Sources of a clean context that report one symbol are one. -/
theorem IsClean.eq_of_reports
    (hClean : IsClean c)
    {other : Source}
    {symbol : String}
    (hSource : source ∈ sourcesOf c)
    (hOther : other ∈ sourcesOf c)
    (hReports : Reports c source symbol)
    (hReportsToo : Reports c other symbol) :
    source = other := by
  by_contra hNe
  refine hClean.apart source hSource other hOther ?_ symbol
    hReports hReportsToo
  intro hPath
  exact hNe (Sources.eq_of_mem_firsts hSource hOther hPath)

section Rebuilt

variable {i built : Index} {missing : Keyed Int}
variable
  (hRebuild : rebuild c (i.withoutFiles missing) = .ok () built)
variable (hSource : source ∈ sourcesOf c)
variable {alone : Bool} {result : Scan.Result}

include hRebuild hSource

/- What a source reports is free once the source is forgotten. -/
theorem free_of_rescanned
    (hReported : reported c source = .ok result)
    {symbol : String}
    (hSymbol : symbol ∈ result.symbols) :
    (built.rescanned source.path source.mtime alone
      result).known.symbols.get? symbol = none := by
  have hClean :=
    (rebuild_isOk_iff_isClean c i missing).mp ⟨built, hRebuild⟩
  rw [Option.eq_none_iff_forall_ne_some]
  intro entry hEntry
  rw [symbols_rescanned] at hEntry
  rcases ((known_of_rebuild hRebuild).1 symbol entry).mp
      hEntry.1 with ⟨other, hOther, hReports, rfl⟩
  have hSame : source = other :=
    hClean.eq_of_reports hSource hOther
      ⟨result, hReported, hSymbol⟩ hReports
  exact hEntry.2 (congrArg Source.path hSame).symm

/- Entering what is reported gives the maps of the rebuild. -/
theorem sameMap_of_entered
    (hReported : reported c source = .ok result)
    {final : Index}
    (hFinal :
      final.known =
        ((built.rescanned source.path source.mtime alone
          result).enteredAll (entryOf source)
            result.symbols).known) :
    final.known.symbols.SameMap built.known.symbols ∧
    final.known.emptyFiles.SameMap built.known.emptyFiles := by
  rcases known_of_rebuild hRebuild with ⟨hSymbols, hEmpty, -⟩
  have hReports :
      ∀ symbol,
        Reports c source symbol ↔ symbol ∈ result.symbols := by
    intro symbol
    unfold Reports
    simp [hReported]
  rw [hFinal]
  refine ⟨?_, ?_⟩
  · intro symbol
    rw [symbols_enteredAll]
    split
    · next hSymbol =>
        symm
        rw [hSymbols]
        exact ⟨source, hSource, (hReports symbol).mpr hSymbol, rfl⟩
    · next hSymbol =>
        -- The entries of the file are those that it reports.
        apply Option.ext
        intro entry
        rw [symbols_rescanned]
        refine and_iff_left_of_imp ?_
        intro hEntry hPath
        rcases (hSymbols symbol entry).mp hEntry with
          ⟨other, hOther, hOtherReports, rfl⟩
        have hSame :=
          Sources.eq_of_mem_firsts hOther hSource hPath
        rw [hSame, hReports] at hOtherReports
        exact hSymbol hOtherReports
  · intro path
    rw [emptyFiles_enteredAll, emptyFiles_rescanned]
    split
    · next hPath =>
        apply Option.ext
        intro mtime
        rw [hPath, hEmpty]
        unfold Snapshot.emptyTime
        constructor
        · intro hTime
          split at hTime
          · next hNone =>
              cases hTime
              exact ⟨source, hSource, ⟨result, hReported, hNone⟩,
                rfl, rfl⟩
          · cases hTime
        · rintro ⟨other, hOther, ⟨nothing, hNothing, hNone⟩,
            hOtherPath, rfl⟩
          have hSame :=
            Sources.eq_of_mem_firsts hOther hSource hOtherPath
          rw [hSame, hReported] at hNothing
          cases hNothing
          rw [if_pos hNone, hSame]
    · rfl

/-
  If an update enters what it reports and the maps stay as they
  are, the rebuild has reported the stem that the update did.
-/
theorem agrees_of_sameMap
    {middle : Index}
    (hAlone : standsAlone c source.path = .ok alone)
    (hSourceAlone : source.alone = true → alone = true)
    (hRun :
      (Scan.ofPath source.path alone).run c.disk c.strict =
        .ok result)
    (hHas :
      middle.known.Has source.path source.mtime result.symbols
        (Snapshot.emptyTime result.symbols source.mtime))
    (hSame : middle.known.symbols.SameMap built.known.symbols) :
    standsAlone c source.path = .ok source.alone ∨
      Reports c source (stemOf source.path) := by
  by_cases hModes : alone = source.alone
  · exact Or.inl (hModes ▸ hAlone)
  · right
    have hScannedAlone : alone = true := by
      cases hMode : source.alone with
      | true => exact hSourceAlone hMode
      | false =>
          rw [hMode] at hModes
          simpa using hModes
    rcases exists_run_of_run hRun with ⟨declared, hSymbols, -⟩
    have hStem :
        middle.known.symbols.get? (stemOf source.path) =
          some ⟨source.path, source.mtime⟩ := by
      rw [hHas.entries, hSymbols, mem_withStem]
      exact ⟨Or.inr ⟨hScannedAlone, rfl⟩, rfl⟩
    rw [hSame] at hStem
    rcases ((known_of_rebuild hRebuild).1 _ _).mp hStem with
      ⟨other, hOther, hReports, hEntry⟩
    have hPath : other.path = source.path :=
      (congrArg Entry.file hEntry).symm
    rwa [Sources.eq_of_mem_firsts hOther hSource hPath]
      at hReports

end Rebuilt

/-
  After a rebuild from nothing, an update of one of its sources
  succeeds and leaves all files as they are if and only if both
  scan the source alike and the update can tell so.
-/
theorem update_keeps_rebuilt_iff
    {i built : Index}
    (hRebuild :
      (do clear; rebuild c : Work Unit) i = .ok () built)
    (hSource : source ∈ sourcesOf c) :
    (∃ final,
      update c source.path built = .ok () final ∧
      final.known.symbols.SameMap built.known.symbols ∧
      final.known.emptyFiles.SameMap built.known.emptyFiles) ↔
      UpdatesAlike c source := by
  rw [clear_then] at hRebuild
  have hClean :=
    (rebuild_isOk_iff_isClean c i .empty).mp ⟨built, hRebuild⟩
  have hStat :=
    Sources.stat_of_mem_ofSettings (Sources.firsts_subset hSource)
  rcases standsAlone_of_mem_sourcesOf hClean.resolve hSource with
    ⟨alone, hAlone, hSourceAlone⟩
  rcases hClean.scanned source hSource with ⟨result, hReported⟩
  constructor
  · rintro ⟨final, hUpdate, hSame, -⟩
    rcases exists_run_of_run hReported with ⟨declared, -, hRuns⟩
    rcases exists_loop_of_update hStat hAlone (hRuns alone)
        hUpdate with
      ⟨middle, hLoop, hTold⟩
    rw [known_of_debug hTold] at hSame
    have hHas :=
      has_forM_reclaim hStat (has_rescanned _ _ _ _ _) hLoop
    have hAgrees :=
      agrees_of_sameMap hRebuild hSource hAlone hSourceAlone
        (hRuns alone) hHas hSame
    refine ⟨hAgrees, ?_⟩
    intro hDebug other hOther
    rw [hReported] at hOther
    cases hOther
    -- Both scans are one, so the notice counts the same symbols.
    have hRun :=
      run_of_agrees hReported hAlone hAgrees hSourceAlone
    rw [hRuns alone, Except.ok.injEq] at hRun
    rw [← hRun]
    exact debug_isOk_iff.mp ⟨final, hTold⟩ hDebug
  · rintro ⟨hAgrees, hShown⟩
    have hRun :=
      run_of_agrees hReported hAlone hAgrees hSourceAlone
    let entered :=
      (built.rescanned source.path source.mtime alone
        result).enteredAll (entryOf source) result.symbols
    have hLoop :
        result.symbols.forM
            (reclaim c (updateWithin c built.known.symbols.size)
              source.path source.mtime)
            (built.rescanned source.path source.mtime alone
              result) =
          .ok () entered :=
      forM_reclaim_of_free (Scan.nodup_run hRun)
        fun symbol hSymbol =>
          free_of_rescanned hRebuild hSource hReported hSymbol
    rcases (debug_isOk_iff (i := entered)).mpr
        (fun hDebug => hShown hDebug result hReported) with
      ⟨final, hTold⟩
    refine ⟨final, ?_, sameMap_of_entered hRebuild hSource
      hReported (known_of_debug hTold)⟩
    rw [update_of_run hStat hAlone hRun, Work.bind_of_ok hLoop]
    exact hTold

/- Of two roots, one also stands alone and declares nothing. -/
theorem overlapping_sources :
    ⟨"/w/a.php", 5, false⟩ ∈ sourcesOf overlappingSources ∧
    ⟨"/w/b.php", 7, false⟩ ∈ sourcesOf overlappingSources ∧
    UpdatesAlike overlappingSources ⟨"/w/a.php", 5, false⟩ ∧
    ¬ UpdatesAlike overlappingSources ⟨"/w/b.php", 7, false⟩ := by
  decide +kernel

/- The root that stands alone is changed by an update. -/
theorem root_alone_not_kept :
    ∃ built,
      (do clear; rebuild overlappingSources : Work Unit) {} =
        .ok () built ∧
      (∃ final,
        update overlappingSources "/w/a.php" built =
          .ok () final ∧
        final.known.symbols.SameMap built.known.symbols ∧
        final.known.emptyFiles.SameMap
          built.known.emptyFiles) ∧
      ¬ ∃ final,
        update overlappingSources "/w/b.php" built =
          .ok () final ∧
        final.known.symbols.SameMap built.known.symbols ∧
        final.known.emptyFiles.SameMap
          built.known.emptyFiles := by
  rcases overlapping_sources with
    ⟨hFirst, hSecond, hAlike, hNotAlike⟩
  cases hRebuild :
      (do clear; rebuild overlappingSources : Work Unit) {} with
  | error error final =>
      have hSucceeds := overlapping_rebuild
      rw [clear_then] at hRebuild
      rw [hRebuild] at hSucceeds
      cases hSucceeds
  | ok value built =>
      refine ⟨built, rfl, ?_, ?_⟩
      · exact (update_keeps_rebuilt_iff hRebuild hFirst).mpr
          hAlike
      · intro hKept
        exact hNotAlike
          ((update_keeps_rebuilt_iff hRebuild hSecond).mp hKept)

end Index

end SymbolAtlas
