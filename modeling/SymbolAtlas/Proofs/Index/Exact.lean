import Mathlib.Data.List.Pairwise
import SymbolAtlas.Proofs.Index.Loop
import SymbolAtlas.Proofs.Search.Listing

/-
  A rebuild from nothing is exact.

  It succeeds if and only if all sources can be listed and
  scanned and no two of them declare the same symbol, and then
  knows what they declare. None of this depends on the order of
  roots, of files that stand alone, or of names in directories:
  a path that some root leads to is a source of that root, and
  any other one stands alone.

  Key definitions:
    * `Sources.RootExists`, `Sources.RootIsWalked`
    * `Index.Reports`, `Index.IsClean`
    * `Index.Context.rearranged`
  Key theorems:
    * `Sources.failure_ofSettings_eq_none_iff`
    * `Index.mem_sourcesOf_iff`
    * `Index.rebuild_isOk_iff_isClean`
    * `Index.isClean_rearranged_iff`
    * `Index.rebuild_exact_in_any_order`
-/

------------------------------------------------------------
-- Whole Lists of Sources
------------------------------------------------------------

namespace SymbolAtlas

namespace Sources

theorem failure_append_eq_none_iff
    {first second : Sources} :
    (first ++ second).failure = none ↔
      first.failure = none ∧ second.failure = none := by
  change (append first second).failure = none ↔ _
  unfold append
  cases hFirst : first.failure <;> simp [hFirst]

theorem items_append
    {first : Sources}
    (second : Sources)
    (hFirst : first.failure = none) :
    (first ++ second).items = first.items ++ second.items := by
  change (append first second).items = _
  unfold append
  rw [hFirst]

theorem failure_concat_eq_none_iff
    {lists : List Sources} :
    (concat lists).failure = none ↔
      ∀ list ∈ lists, list.failure = none := by
  induction lists with
  | nil => simp [concat]
  | cons first rest ih =>
      change (first ++ concat rest).failure = none ↔ _
      rw [failure_append_eq_none_iff, ih, List.forall_mem_cons]

theorem items_concat
    {lists : List Sources}
    (hLists : ∀ list ∈ lists, list.failure = none) :
    (concat lists).items = lists.flatMap items := by
  induction lists with
  | nil => rfl
  | cons first rest ih =>
      rw [List.forall_mem_cons] at hLists
      change (first ++ concat rest).items = _
      rw [items_append _ hLists.1, ih hLists.2,
        List.flatMap_cons]

/- The root leads to a file or a directory. -/
def RootExists (d : Disk) (s : Settings) (root : String) : Prop :=
  ∃ path stat,
    s.resolvePath d root = .ok path ∧ d.stat path = .ok stat

/- The walk below a root that is a directory does not fail. -/
def RootIsWalked (d : Disk) (s : Settings) (root : String) :
    Prop :=
  ∀ path mtime,
    s.resolvePath d root = .ok path →
    d.stat path = .ok ⟨true, mtime⟩ →
      ∃ query,
        queryOf d s path = .ok query ∧
        (query.run d).failure = none

/- The path of a file that stands alone can be resolved. -/
def FileResolves (d : Disk) (s : Settings) (file : String) :
    Prop :=
  ∃ path, s.resolvePath d file = .ok path

theorem failure_ofRoot_eq_none_iff
    {d : Disk}
    {s : Settings}
    {root : String} :
    (ofRoot d s root).failure = none ↔
      RootExists d s root ∧ RootIsWalked d s root := by
  rw [ofRoot_eq]
  unfold RootExists RootIsWalked
  cases hPath : s.resolvePath d root with
  | error error => simp [fail]
  | ok path =>
      dsimp only
      cases hStat : d.stat path with
      | error fault => simp [fail, hStat]
      | ok stat =>
          have hExists :
              ∃ other otherStat,
                (.ok path : Except Error String) = .ok other ∧
                d.stat other = .ok otherStat :=
            ⟨path, stat, rfl, hStat⟩
          obtain ⟨isDirectory, mtime⟩ := stat
          cases isDirectory with
          | false =>
              refine iff_of_true rfl ⟨hExists, ?_⟩
              intro other time hOther hTime
              cases hOther
              rw [hStat] at hTime
              cases hTime
          | true =>
              simp only [if_true]
              constructor
              · intro hNone
                refine ⟨hExists, ?_⟩
                intro other time hOther _
                cases hOther
                cases hQuery : queryOf d s path with
                | error error => simp [fail, hQuery] at hNone
                | ok query =>
                    simp only [hQuery, ofTrace] at hNone
                    exact ⟨query, rfl, hNone⟩
              · rintro ⟨-, hWalked⟩
                rcases hWalked path mtime rfl hStat with
                  ⟨query, hQuery, hNone⟩
                simp only [hQuery, ofTrace]
                exact hNone

theorem failure_ofFile_eq_none_iff
    {d : Disk}
    {s : Settings}
    {file : String} :
    (ofFile d s file).failure = none ↔ FileResolves d s file := by
  unfold ofFile FileResolves
  cases s.resolvePath d file with
  | error error =>
      simp [bind, Except.bind, ofExcept, fail]
  | ok path =>
      simp only [bind, Except.bind, pure, Except.pure]
      cases d.stat path with
      | error fault => simp [ofExcept]
      | ok stat =>
          dsimp only
          split <;> simp [ofExcept]

/- The list of sources is whole if no part of it is cut short. -/
theorem failure_ofSettings_eq_none_iff
    {d : Disk}
    {s : Settings} :
    (ofSettings d s).failure = none ↔
      (∀ root ∈ s.roots, (ofRoot d s root).failure = none) ∧
      ∀ file ∈ s.files, (ofFile d s file).failure = none := by
  unfold ofSettings
  rw [failure_append_eq_none_iff, failure_concat_eq_none_iff,
    failure_concat_eq_none_iff, List.forall_mem_map,
    List.forall_mem_map]

end Sources

end SymbolAtlas

------------------------------------------------------------
-- Sources as a Set
------------------------------------------------------------

namespace SymbolAtlas

namespace Sources

/- Two sources of roots with one path are one. -/
theorem eq_of_mem_ofRoot
    {d : Disk}
    {s : Settings}
    {root other : String}
    {source another : Source}
    (hSource : source ∈ (ofRoot d s root).items)
    (hAnother : another ∈ (ofRoot d s other).items)
    (hPath : source.path = another.path) :
    source = another := by
  have hStat := (stat_of_mem_ofRoot hSource).1
  have hStatToo := (stat_of_mem_ofRoot hAnother).1
  have hAlone := (stat_of_mem_ofRoot hSource).2
  have hAloneToo := (stat_of_mem_ofRoot hAnother).2
  rw [hPath, hStatToo] at hStat
  obtain ⟨path, mtime, alone⟩ := source
  obtain ⟨pathToo, mtimeToo, aloneToo⟩ := another
  simp_all

/- Two files of one path that stand alone are one. -/
theorem eq_of_mem_ofFile
    {d : Disk}
    {s : Settings}
    {file other : String}
    {source another : Source}
    (hSource : source ∈ (ofFile d s file).items)
    (hAnother : another ∈ (ofFile d s other).items)
    (hPath : source.path = another.path) :
    source = another := by
  have hStat := (mem_ofFile_iff.mp hSource).2.1
  have hStatToo := (mem_ofFile_iff.mp hAnother).2.1
  have hAlone := (mem_ofFile_iff.mp hSource).2.2
  have hAloneToo := (mem_ofFile_iff.mp hAnother).2.2
  rw [hPath, hStatToo] at hStat
  obtain ⟨path, mtime, alone⟩ := source
  obtain ⟨pathToo, mtimeToo, aloneToo⟩ := another
  simp_all

end Sources

namespace Index

/-
  A source is one of a root, or it stands alone and no root
  leads to its path.
-/
theorem mem_sourcesOf_iff
    {c : Context}
    (hWhole :
      (Sources.ofSettings c.disk c.settings).failure = none)
    {source : Source} :
    source ∈ sourcesOf c ↔
      (∃ root ∈ c.settings.roots,
        source ∈
          (Sources.ofRoot c.disk c.settings root).items) ∨
      (∃ file ∈ c.settings.files,
        source ∈
          (Sources.ofFile c.disk c.settings file).items) ∧
      ∀ root ∈ c.settings.roots,
        ∀ other ∈
            (Sources.ofRoot c.disk c.settings root).items,
          other.path ≠ source.path := by
  let rooted := c.settings.roots.flatMap fun root =>
    (Sources.ofRoot c.disk c.settings root).items
  let alone := c.settings.files.flatMap fun file =>
    (Sources.ofFile c.disk c.settings file).items
  have hItems :
      (Sources.ofSettings c.disk c.settings).items =
        rooted ++ alone := by
    unfold Sources.ofSettings at hWhole ⊢
    rw [Sources.failure_append_eq_none_iff] at hWhole
    rw [Sources.items_append _ hWhole.1,
      Sources.items_concat
        (Sources.failure_concat_eq_none_iff.mp hWhole.1),
      Sources.items_concat
        (Sources.failure_concat_eq_none_iff.mp hWhole.2),
      List.flatMap_map, List.flatMap_map]
  have hRooted :
      ∀ item ∈ rooted, ∀ other ∈ rooted,
        item.path = other.path → item = other := by
    intro item hItem other hOther
    rcases List.mem_flatMap.mp hItem with ⟨root, -, hItem⟩
    rcases List.mem_flatMap.mp hOther with ⟨root', -, hOther⟩
    exact Sources.eq_of_mem_ofRoot hItem hOther
  have hAlone :
      ∀ item ∈ alone, ∀ other ∈ alone,
        item.path = other.path → item = other := by
    intro item hItem other hOther
    rcases List.mem_flatMap.mp hItem with ⟨file, -, hItem⟩
    rcases List.mem_flatMap.mp hOther with ⟨file', -, hOther⟩
    exact Sources.eq_of_mem_ofFile hItem hOther
  unfold sourcesOf
  rw [hItems, Sources.mem_firsts_append,
    Sources.mem_firsts_of_agree hRooted,
    Sources.mem_firsts_of_agree hAlone]
  simp only [rooted, alone, List.mem_flatMap, List.not_mem_nil,
    not_false_eq_true, and_true]
  grind

/- The time of a source is the time of its file. -/
theorem mtime?_of_mem_sourcesOf
    {c : Context}
    {source : Source}
    (hSource : source ∈ sourcesOf c) :
    c.disk.mtime? source.path = some source.mtime := by
  have hStat :=
    Sources.stat_of_mem_ofSettings (Sources.firsts_subset hSource)
  unfold Disk.mtime?
  rw [hStat]
  rfl

end Index

end SymbolAtlas

------------------------------------------------------------
-- Success
------------------------------------------------------------

namespace SymbolAtlas

@[simp] theorem Scan.run_relisted
    (s : Scan)
    (d : Disk)
    (listing : Listing)
    (strict : Bool) :
    s.run (d.relisted listing) strict = s.run d strict := by
  unfold run read
  simp only [Disk.read_relisted]

namespace Index

/- A scan of the source reports the symbol. -/
def Reports (c : Context) (source : Source) (symbol : String) :
    Prop :=
  ∃ result,
    reported c source = .ok result ∧ symbol ∈ result.symbols

instance
    (c : Context)
    (source : Source)
    (symbol : String) :
    Decidable (Reports c source symbol) :=
  match hReported : reported c source with
  | .error _ => .isFalse (by
      rintro ⟨result, hResult, -⟩
      rw [hReported] at hResult
      cases hResult)
  | .ok result => decidable_of_iff (symbol ∈ result.symbols) (by
      unfold Reports
      simp [hReported])

/- A scan of the source reports nothing. -/
def ReportsNothing (c : Context) (source : Source) : Prop :=
  ∃ result, reported c source = .ok result ∧ result.symbols = []

/-
  Nothing is wrong with the sources: roots exist and are walked,
  files that stand alone have a path, all sources can be
  scanned, and sources of different paths report different
  symbols.
-/
structure IsClean (c : Context) : Prop where
  exist :
    ∀ root ∈ c.settings.roots,
      Sources.RootExists c.disk c.settings root
  walked :
    ∀ root ∈ c.settings.roots,
      Sources.RootIsWalked c.disk c.settings root
  resolve :
    ∀ file ∈ c.settings.files,
      Sources.FileResolves c.disk c.settings file
  scanned :
    ∀ source ∈ sourcesOf c,
      ∃ result, reported c source = .ok result
  apart :
    ∀ source ∈ sourcesOf c, ∀ other ∈ sourcesOf c,
      source.path ≠ other.path →
        ∀ symbol, Reports c source symbol → ¬ Reports c other symbol

theorem isWhole_iff
    {c : Context} :
    (Sources.ofSettings c.disk c.settings).failure = none ↔
      (∀ root ∈ c.settings.roots,
        Sources.RootExists c.disk c.settings root) ∧
      (∀ root ∈ c.settings.roots,
        Sources.RootIsWalked c.disk c.settings root) ∧
      ∀ file ∈ c.settings.files,
        Sources.FileResolves c.disk c.settings file := by
  simp only [Sources.failure_ofSettings_eq_none_iff,
    Sources.failure_ofRoot_eq_none_iff,
    Sources.failure_ofFile_eq_none_iff]
  grind

theorem isClean_iff
    {c : Context} :
    IsClean c ↔
      (Sources.ofSettings c.disk c.settings).failure = none ∧
      (∀ source ∈ sourcesOf c,
        ∃ result, reported c source = .ok result) ∧
      ∀ source ∈ sourcesOf c, ∀ other ∈ sourcesOf c,
        source.path ≠ other.path →
          ∀ symbol,
            Reports c source symbol →
              ¬ Reports c other symbol := by
  rw [isWhole_iff]
  constructor
  · intro hClean
    exact ⟨⟨hClean.exist, hClean.walked, hClean.resolve⟩,
      hClean.scanned, hClean.apart⟩
  · rintro ⟨⟨hExist, hWalked, hResolve⟩, hScanned, hApart⟩
    exact ⟨hExist, hWalked, hResolve, hScanned, hApart⟩

/- A rebuild succeeds if its loop and its list of sources do. -/
theorem rebuild_isOk_iff
    {c : Context}
    {i : Index} :
    (∃ final, rebuild c i = .ok () final) ↔
      (∃ final,
        (sourcesOf c).forM
          (takeIn c (Memory.ofSnapshot i.known)) i.begun =
            .ok () final) ∧
      (Sources.ofSettings c.disk c.settings).failure = none := by
  cases hLoop :
      (sourcesOf c).forM
        (takeIn c (Memory.ofSnapshot i.known)) i.begun with
  | error error final =>
      rw [rebuild_of_error hLoop]
      simp
  | ok value final =>
      rw [rebuild_of_ok hLoop]
      cases (Sources.ofSettings c.disk c.settings).failure <;>
        simp

/- The loop that a successful rebuild has gone through. -/
theorem exists_loop_of_rebuild
    {c : Context}
    {i final : Index}
    (hRebuild : rebuild c i = .ok () final) :
    ∃ middle,
      (sourcesOf c).forM
        (takeIn c (Memory.ofSnapshot i.known)) i.begun =
          .ok () middle ∧
      final.known = middle.known := by
  rcases rebuild_isOk_iff.mp ⟨final, hRebuild⟩ with
    ⟨⟨middle, hLoop⟩, hWhole⟩
  rw [rebuild_of_ok hLoop, hWhole] at hRebuild
  cases hRebuild
  exact ⟨middle, hLoop, rfl⟩

/- From nothing a rebuild succeeds if nothing is wrong. -/
theorem rebuild_isOk_iff_isClean
    (c : Context)
    (i : Index)
    (missing : Keyed Int) :
    (∃ final, rebuild c (i.withoutFiles missing) = .ok () final) ↔
      IsClean c := by
  rw [rebuild_isOk_iff, forM_takeIn_isOk_iff, isWhole_iff]
  constructor
  · rintro ⟨⟨hScanned, -, hPairwise⟩, hExist, hWalked, hResolve⟩
    refine ⟨hExist, hWalked, hResolve, hScanned, ?_⟩
    intro source hSource other hOther hPath
    have hApart :
        (sourcesOf c).Pairwise fun source other =>
          ∀ symbol,
            Reports c source symbol →
              ¬ Reports c other symbol :=
      hPairwise
    have hSymm :
        Std.Symm fun source other : Source =>
          ∀ symbol,
            Reports c source symbol →
              ¬ Reports c other symbol :=
      ⟨fun _ _ hApart symbol hReports hToo =>
        hApart symbol hToo hReports⟩
    exact hApart.forall hSource hOther
      fun hSame => hPath (hSame ▸ rfl)
  · intro hClean
    refine ⟨⟨hClean.scanned, ?_, ?_⟩, hClean.exist,
      hClean.walked, hClean.resolve⟩
    · intro source _ symbol _
      rfl
    · refine (Sources.pairwise_firsts [] _).imp_of_mem ?_
      intro source other hSource hOther hPath
      exact hClean.apart source hSource other hOther hPath

/- From nothing a rebuild knows what the sources report. -/
theorem known_of_rebuild
    {c : Context}
    {i final : Index}
    {missing : Keyed Int}
    (hRebuild :
      rebuild c (i.withoutFiles missing) = .ok () final) :
    (∀ symbol entry,
      final.known.symbols.get? symbol = some entry ↔
        ∃ source ∈ sourcesOf c,
          Reports c source symbol ∧ entry = entryOf source) ∧
    (∀ file mtime,
      final.known.emptyFiles.get? file = some mtime ↔
        ∃ source ∈ sourcesOf c,
          ReportsNothing c source ∧
          source.path = file ∧ source.mtime = mtime) ∧
    ∀ symbol misses,
      final.known.missing.get? symbol = some misses ↔
        missing.get? symbol = some misses ∧
        ∀ source ∈ sourcesOf c, ¬ Reports c source symbol := by
  rcases exists_loop_of_rebuild hRebuild with
    ⟨middle, hLoop, hKnown⟩
  rw [hKnown]
  refine ⟨?_, ?_, ?_⟩
  · intro symbol entry
    rw [symbols_forM_takeIn hLoop]
    simp only [begun, Keyed.get?_empty, reduceCtorEq, false_or]
    rfl
  · intro file mtime
    rw [emptyFiles_forM_takeIn (Sources.pairwise_firsts [] _)
      hLoop]
    simp only [begun, Keyed.get?_empty, reduceCtorEq, false_and,
      or_false]
    rfl
  · intro symbol misses
    rw [missing_forM_takeIn hLoop]
    rfl

end Index

end SymbolAtlas

------------------------------------------------------------
-- Other Orders
------------------------------------------------------------

namespace SymbolAtlas

namespace Index

/- The same sources, asked for and listed in another order. -/
def Context.rearranged
    (c : Context)
    (roots files : List String)
    (listing : Listing) : Context where
  disk := c.disk.relisted listing
  settings := { c.settings with roots := roots, files := files }
  strict := c.strict

section Rearranged

variable {c : Context} {roots files : List String}
variable (hRoots : roots.Perm c.settings.roots)
variable (hFiles : files.Perm c.settings.files)
variable (listing : Listing)

theorem reported_rearranged
    (source : Source) :
    reported (c.rearranged roots files listing) source =
      reported c source := by
  unfold reported
  exact Scan.run_relisted _ c.disk listing c.strict

theorem reports_rearranged
    (source : Source)
    (symbol : String) :
    Reports (c.rearranged roots files listing) source symbol ↔
      Reports c source symbol := by
  unfold Reports
  rw [reported_rearranged]

include hRoots hFiles

theorem isWhole_rearranged_iff :
    (Sources.ofSettings (c.rearranged roots files listing).disk
      (c.rearranged roots files listing).settings).failure =
        none ↔
      (Sources.ofSettings c.disk c.settings).failure = none := by
  have hRoot :
      ∀ root,
        (Sources.ofRoot
          (c.rearranged roots files listing).disk
          (c.rearranged roots files listing).settings
          root).failure = none ↔
          (Sources.ofRoot c.disk c.settings root).failure =
            none :=
    fun root =>
      (Sources.ofRoot_alike c.disk listing c.settings root).1.symm
  have hFile :
      ∀ file,
        Sources.ofFile
          (c.rearranged roots files listing).disk
          (c.rearranged roots files listing).settings file =
          Sources.ofFile c.disk c.settings file :=
    Sources.ofFile_relisted c.disk listing c.settings
  rw [Sources.failure_ofSettings_eq_none_iff,
    Sources.failure_ofSettings_eq_none_iff]
  simp only [hRoot, hFile]
  simp only [Context.rearranged, hRoots.mem_iff, hFiles.mem_iff]

theorem mem_sourcesOf_rearranged_iff
    (hWhole :
      (Sources.ofSettings c.disk c.settings).failure = none)
    {source : Source} :
    source ∈ sourcesOf (c.rearranged roots files listing) ↔
      source ∈ sourcesOf c := by
  have hRootWhole :=
    (Sources.failure_ofSettings_eq_none_iff.mp hWhole).1
  have hRoot :
      ∀ root ∈ c.settings.roots, ∀ source,
        source ∈
            (Sources.ofRoot
              (c.rearranged roots files listing).disk
              (c.rearranged roots files listing).settings
              root).items ↔
          source ∈
            (Sources.ofRoot c.disk c.settings root).items := by
    intro root hMem source
    have hPerm :=
      (Sources.ofRoot_alike c.disk listing c.settings root).2
        (hRootWhole root hMem)
    exact hPerm.mem_iff.symm
  have hFile :
      ∀ file,
        Sources.ofFile
          (c.rearranged roots files listing).disk
          (c.rearranged roots files listing).settings file =
          Sources.ofFile c.disk c.settings file :=
    Sources.ofFile_relisted c.disk listing c.settings
  rw [mem_sourcesOf_iff hWhole, mem_sourcesOf_iff
    ((isWhole_rearranged_iff hRoots hFiles listing).mpr hWhole)]
  have hRootsMem :
      ∀ root,
        root ∈ (c.rearranged roots files listing).settings.roots ↔
          root ∈ c.settings.roots :=
    fun _ => hRoots.mem_iff
  have hFilesMem :
      ∀ file,
        file ∈ (c.rearranged roots files listing).settings.files ↔
          file ∈ c.settings.files :=
    fun _ => hFiles.mem_iff
  simp only [hFile, hRootsMem, hFilesMem]
  grind

/- Nothing is wrong in one order if nothing is in another. -/
theorem isClean_rearranged_iff :
    IsClean (c.rearranged roots files listing) ↔ IsClean c := by
  rw [isClean_iff, isClean_iff,
    isWhole_rearranged_iff hRoots hFiles listing]
  refine and_congr_right fun hWhole => ?_
  simp only [reported_rearranged, reports_rearranged,
    mem_sourcesOf_rearranged_iff hRoots hFiles listing hWhole]

end Rearranged

/-
  From an index that knows of no file, such as a cleared one, a
  rebuild succeeds if and only if nothing is wrong with the
  sources. Then it knows for each symbol the one source that
  reports it, with its time, and for each source that reports
  nothing its time; of the missing names it keeps those that no
  source reports. Success and what is known stay the same when
  roots, files that stand alone or listings come in another
  order.
-/
theorem rebuild_exact_in_any_order
    (c : Context)
    (i : Index)
    (missing : Keyed Int) :
    ((∃ final,
      rebuild c (i.withoutFiles missing) = .ok () final) ↔
        IsClean c) ∧
    (∀ final,
      rebuild c (i.withoutFiles missing) = .ok () final →
        (∀ symbol entry,
          final.known.symbols.get? symbol = some entry ↔
            ∃ source ∈ sourcesOf c,
              Reports c source symbol ∧
              source.path = entry.file ∧
              c.disk.mtime? source.path = some entry.mtime) ∧
        (∀ file mtime,
          final.known.emptyFiles.get? file = some mtime ↔
            ∃ source ∈ sourcesOf c,
              ReportsNothing c source ∧
              source.path = file ∧
              c.disk.mtime? source.path = some mtime) ∧
        ∀ symbol misses,
          final.known.missing.get? symbol = some misses ↔
            missing.get? symbol = some misses ∧
            final.known.symbols.get? symbol = none) ∧
    ∀ roots files listing,
      roots.Perm c.settings.roots →
      files.Perm c.settings.files →
        ((∃ other,
          rebuild (c.rearranged roots files listing)
            (i.withoutFiles missing) = .ok () other) ↔
          ∃ final,
            rebuild c (i.withoutFiles missing) =
              .ok () final) ∧
        ∀ final other,
          rebuild c (i.withoutFiles missing) = .ok () final →
          rebuild (c.rearranged roots files listing)
            (i.withoutFiles missing) = .ok () other →
              final.known.symbols.SameMap other.known.symbols ∧
              final.known.emptyFiles.SameMap
                other.known.emptyFiles ∧
              final.known.missing.SameMap
                other.known.missing := by
  refine ⟨rebuild_isOk_iff_isClean c i missing, ?_, ?_⟩
  · intro final hRebuild
    rcases known_of_rebuild hRebuild with
      ⟨hSymbols, hEmpty, hMissing⟩
    refine ⟨?_, ?_, ?_⟩
    · intro symbol entry
      rw [hSymbols]
      refine exists_congr fun source => and_congr_right
        fun hSource => and_congr_right fun _ => ?_
      rw [mtime?_of_mem_sourcesOf hSource]
      obtain ⟨file, mtime⟩ := entry
      simp only [entryOf, Entry.mk.injEq, Option.some.injEq]
      grind
    · intro file mtime
      rw [hEmpty]
      refine exists_congr fun source => and_congr_right
        fun hSource => ?_
      rw [mtime?_of_mem_sourcesOf hSource, Option.some.injEq]
    · intro symbol misses
      rw [hMissing]
      refine and_congr_right fun _ => ?_
      rw [Option.eq_none_iff_forall_ne_some]
      simp only [ne_eq, hSymbols]
      grind
  · intro roots files listing hRoots hFiles
    refine ⟨?_, ?_⟩
    · rw [rebuild_isOk_iff_isClean, rebuild_isOk_iff_isClean,
        isClean_rearranged_iff hRoots hFiles]
    · intro final other hFinal hOther
      have hWhole := (rebuild_isOk_iff.mp ⟨final, hFinal⟩).2
      have hSources :
          ∀ source,
            source ∈ sourcesOf (c.rearranged roots files listing) ↔
              source ∈ sourcesOf c :=
        fun _ => mem_sourcesOf_rearranged_iff hRoots hFiles
          listing hWhole
      rcases known_of_rebuild hFinal with
        ⟨hSymbols, hEmpty, hMissing⟩
      rcases known_of_rebuild hOther with
        ⟨hSymbolsToo, hEmptyToo, hMissingToo⟩
      simp only [hSources, reports_rearranged] at hSymbolsToo
      simp only [hSources, ReportsNothing,
        reported_rearranged] at hEmptyToo
      simp only [hSources, reports_rearranged] at hMissingToo
      refine ⟨fun symbol => ?_, fun file => ?_, fun symbol => ?_⟩
      · apply Option.ext
        intro entry
        rw [hSymbols, hSymbolsToo]
      · apply Option.ext
        intro mtime
        rw [hEmpty, hEmptyToo]
        rfl
      · apply Option.ext
        intro misses
        rw [hMissing, hMissingToo]

/- Names are listed in the opposite order. -/
def reversedListing : Listing :=
  ⟨fun _ names => names.reverse,
    fun _ names => names.reverse_perm⟩

/- Two roots, one of which also stands alone, and a third file. -/
def overlappingSources : Context where
  disk :=
    { nodes := [
        (["w"], .newDirectory),
        (["w", "a.php"], .file "<?php class A {}".toUTF8 5),
        (["w", "b.php"], .file .empty 7),
        (["w", "c.php"], .file .empty 9)] }
  settings :=
    { projectDir := "/w"
      roots := ["a.php", "b.php"]
      files := ["b.php", "c.php"] }
  strict := true

theorem overlapping_rebuild :
    (rebuild overlappingSources
      (({} : Index).withoutFiles .empty) matches
        .ok _ _) = true := by
  decide +kernel

theorem rebuild_exact_when_reversed :
    ["b.php", "a.php"].Perm overlappingSources.settings.roots ∧
    ["c.php", "b.php"].Perm overlappingSources.settings.files ∧
    ∃ final other,
      rebuild overlappingSources
        (({} : Index).withoutFiles .empty) = .ok () final ∧
      rebuild
        (overlappingSources.rearranged ["b.php", "a.php"]
          ["c.php", "b.php"] reversedListing)
        (({} : Index).withoutFiles .empty) = .ok () other ∧
      final.known.symbols.SameMap other.known.symbols ∧
      final.known.emptyFiles.SameMap other.known.emptyFiles := by
  have hRoots :
      ["b.php", "a.php"].Perm
        overlappingSources.settings.roots := by
    decide
  have hFiles :
      ["c.php", "b.php"].Perm
        overlappingSources.settings.files := by
    decide
  refine ⟨hRoots, hFiles, ?_⟩
  have hRearranged :=
    (rebuild_exact_in_any_order overlappingSources {}
      .empty).2.2 _ _ reversedListing hRoots hFiles
  cases hFinal :
      rebuild overlappingSources
        (({} : Index).withoutFiles .empty) with
  | ok value final =>
      rcases hRearranged.1.mpr ⟨final, hFinal⟩ with
        ⟨other, hOther⟩
      have hSame := hRearranged.2 final other hFinal hOther
      exact ⟨final, other, rfl, hOther, hSame.1, hSame.2.1⟩
  | error error final =>
      have hSucceeds := overlapping_rebuild
      rw [hFinal] at hSucceeds
      cases hSucceeds

end Index

end SymbolAtlas
