import SymbolAtlas.Proofs.Index.Exact
import SymbolAtlas.Proofs.Index.Incremental
import SymbolAtlas.Proofs.Store.Lossless

/-
  Rebuilds with nothing to do.

  After a rebuild the files that are recorded are the sources, at
  their times. Another rebuild then finds every source in its
  memory: it cannot fail, scans no file and ends with what was
  known before, in whatever order that is kept.

  Key definitions:
    * `Index.Present`, a source with a path and a time
    * `Index.IsWhole`, `Index.SameSources`
    * `Index.IsSettled`, what a rebuild leaves behind
  Key theorems:
    * `Index.settled_of_rebuild`
    * `Index.IsSettled.of_sameMaps`
    * `Index.rebuild_of_settled`
-/

------------------------------------------------------------
-- Settled Snapshots
------------------------------------------------------------

namespace SymbolAtlas

namespace Index

/- There is a source with the path and the time. -/
def Present
    (c : Context)
    (path : String)
    (mtime : Int) : Prop :=
  ∃ source ∈ sourcesOf c,
    source.path = path ∧ source.mtime = mtime

/-
  The snapshot records the sources at their times and no other
  file, and no symbol is known and missing.
-/
structure IsSettled
    (c : Context)
    (k : Snapshot) : Prop
    extends k.IsConsistent where
  recorded :
    ∀ file mtime, k.Records file mtime ↔ Present c file mtime
  disjoint :
    ∀ symbol entry,
      k.symbols.get? symbol = some entry →
      k.missing.get? symbol = none

variable {c : Context} {k l : Snapshot}

theorem pairwise_sourcesOf
    (c : Context) :
    (sourcesOf c).Pairwise (·.path ≠ ·.path) :=
  Sources.pairwise_firsts [] _

/- The list of sources is not cut short. -/
def IsWhole (c : Context) : Prop :=
  (Sources.ofSettings c.disk c.settings).failure = none

/-
  Both lists of sources are whole or cut short, and if they are
  whole the same files are sources, at the same times.
-/
structure SameSources (b c : Context) : Prop where
  whole : IsWhole b ↔ IsWhole c
  present :
    IsWhole c →
      ∀ path mtime, Present b path mtime ↔ Present c path mtime

/- A path has one time. -/
theorem Present.unique
    {path : String}
    {mtime time : Int}
    (hPresent : Present c path mtime)
    (hOther : Present c path time) :
    mtime = time := by
  rcases hPresent with ⟨source, hSource, rfl, rfl⟩
  rcases hOther with ⟨other, hMem, hPath, rfl⟩
  rw [Sources.eq_of_mem_firsts hSource hMem hPath.symm]

/- It does not matter how the maps are kept. -/
theorem IsSettled.of_sameMaps
    (hSettled : IsSettled c k)
    (hSame : l.SameMaps k) :
    IsSettled c l := by
  obtain ⟨hSymbols, hMissing, hEmptyFiles⟩ := hSame
  refine ⟨⟨?_, ?_⟩, ?_, ?_⟩
  · simpa only [hSymbols _] using hSettled.oneTime
  · simpa only [Snapshot.Maps, hSymbols _, hEmptyFiles _]
      using hSettled.apart
  · simpa only [Snapshot.Records, hSymbols _, hEmptyFiles _]
      using hSettled.recorded
  · simpa only [hSymbols _, hMissing _] using hSettled.disjoint

/- Only the paths and the times of the sources matter. -/
theorem IsSettled.of_sameSources
    {b : Context}
    (hSettled : IsSettled c k)
    (hWhole : IsWhole c)
    (hSame : SameSources b c) :
    IsSettled b k where
  toIsConsistent := hSettled.toIsConsistent
  recorded file mtime :=
    (hSettled.recorded file mtime).trans
      (hSame.present hWhole file mtime).symm
  disjoint := hSettled.disjoint

/- Sources depend on the disk and the settings. -/
theorem SameSources.of_eq
    {b : Context}
    (hDisk : b.disk = c.disk)
    (hSettings : b.settings = c.settings) :
    SameSources b c := by
  have hSources : sourcesOf b = sourcesOf c := by
    unfold sourcesOf
    rw [hDisk, hSettings]
  refine ⟨?_, fun _ path mtime => ?_⟩
  · unfold IsWhole
    rw [hDisk, hSettings]
  · unfold Present
    rw [hSources]

theorem SameSources.symm
    {b : Context}
    (hSame : SameSources b c) :
    SameSources c b :=
  ⟨hSame.whole.symm, fun hWhole path mtime =>
    (hSame.present (hSame.whole.mp hWhole) path mtime).symm⟩

end Index

end SymbolAtlas

------------------------------------------------------------
-- After a Rebuild
------------------------------------------------------------

namespace SymbolAtlas

namespace Index

variable {c : Context} {i final : Index}

variable (hRebuild : rebuild c i = .ok () final)

include hRebuild

/- Each source was remembered or could be scanned. -/
theorem exists_found_of_rebuild
    {source : Source}
    (hSource : source ∈ sourcesOf c) :
    ∃ result,
      found c (Memory.ofSnapshot i.known) source = .ok result := by
  rcases exists_loop_of_rebuild hRebuild with ⟨middle, hLoop, -⟩
  exact (forM_takeIn_isOk_iff.mp ⟨middle, hLoop⟩).1 source hSource

/- Entries are those of the sources that they were found in. -/
theorem symbols_rebuilt_iff
    (symbol : String)
    (entry : Entry) :
    final.known.symbols.get? symbol = some entry ↔
      ∃ source ∈ sourcesOf c,
        Finds c i.known source symbol ∧
          entry = entryOf source := by
  rcases exists_loop_of_rebuild hRebuild with
    ⟨middle, hLoop, hKnown⟩
  rw [hKnown]
  simpa [begun] using symbols_forM_takeIn hLoop symbol entry

theorem emptyFiles_rebuilt_iff
    (file : String)
    (mtime : Int) :
    final.known.emptyFiles.get? file = some mtime ↔
      ∃ source ∈ sourcesOf c,
        FindsNothing c i.known source ∧
          source.path = file ∧ source.mtime = mtime := by
  rcases exists_loop_of_rebuild hRebuild with
    ⟨middle, hLoop, hKnown⟩
  rw [hKnown]
  simpa [begun] using
    emptyFiles_forM_takeIn (pairwise_sourcesOf c) hLoop file mtime

/- A source is recorded with its symbols, or as an empty file. -/
theorem records_rebuilt_iff
    (file : String)
    (mtime : Int) :
    final.known.Records file mtime ↔ Present c file mtime := by
  have hSymbols := symbols_rebuilt_iff hRebuild
  have hEmptyFiles := emptyFiles_rebuilt_iff hRebuild
  constructor
  · rintro (hEmpty | ⟨symbol, hSymbol⟩)
    · rcases (hEmptyFiles file mtime).mp hEmpty with
        ⟨source, hSource, -, hPath, hTime⟩
      exact ⟨source, hSource, hPath, hTime⟩
    · rcases (hSymbols symbol _).mp hSymbol with
        ⟨source, hSource, -, hEntry⟩
      cases hEntry
      exact ⟨source, hSource, rfl, rfl⟩
  · rintro ⟨source, hSource, rfl, rfl⟩
    rcases exists_found_of_rebuild hRebuild hSource with
      ⟨result, hResult⟩
    cases hNames : result.symbols with
    | nil =>
        left
        exact (hEmptyFiles _ _).mpr
          ⟨source, hSource, ⟨result, hResult, hNames⟩, rfl, rfl⟩
    | cons symbol rest =>
        right
        refine ⟨symbol, (hSymbols symbol _).mpr
          ⟨source, hSource, ⟨result, hResult, ?_⟩, rfl⟩⟩
        rw [hNames]
        exact List.mem_cons_self

/- What a rebuild leaves behind is settled. -/
theorem settled_of_rebuild :
    IsSettled c final.known := by
  have hSymbols := symbols_rebuilt_iff hRebuild
  have hRecorded := records_rebuilt_iff hRebuild
  have hPresent :
      ∀ symbol file mtime,
        final.known.symbols.get? symbol = some ⟨file, mtime⟩ →
        Present c file mtime :=
    fun symbol file mtime hSymbol =>
      (hRecorded file mtime).mp (Or.inr ⟨symbol, hSymbol⟩)
  refine ⟨⟨?_, ?_⟩, hRecorded, ?_⟩
  · intro symbol other file mtime time hSymbol hOther
    exact (hPresent _ _ _ hSymbol).unique (hPresent _ _ _ hOther)
  · rintro file mtime symbol hEmpty ⟨time, hSymbol⟩
    rcases (emptyFiles_rebuilt_iff hRebuild file mtime).mp hEmpty
      with ⟨source, hSource, hNothing, hPath, -⟩
    rcases (hSymbols symbol _).mp hSymbol with
      ⟨other, hOther, hFinds, hEntry⟩
    have hFile : other.path = file :=
      (congrArg Entry.file hEntry).symm
    rw [Sources.eq_of_mem_firsts hSource hOther
      (hPath.trans hFile.symm)] at hNothing
    rcases exists_found_of_rebuild hRebuild hOther with
      ⟨result, hResult⟩
    have hNone := (findsNothing_iff hResult).mp hNothing
    have hSome := (finds_iff hResult symbol).mp hFinds
    rw [hNone] at hSome
    cases hSome
  · intro symbol entry hSymbol
    rcases (hSymbols symbol entry).mp hSymbol with
      ⟨source, hSource, hFinds, -⟩
    rcases exists_loop_of_rebuild hRebuild with
      ⟨middle, hLoop, hKnown⟩
    by_contra hMissing
    rcases Option.ne_none_iff_exists'.mp hMissing with
      ⟨misses, hMisses⟩
    rw [hKnown] at hMisses
    exact ((missing_forM_takeIn hLoop symbol misses).mp
      hMisses).2 source hSource hFinds

end Index

end SymbolAtlas

------------------------------------------------------------
-- Another Rebuild
------------------------------------------------------------

namespace SymbolAtlas

/- Maps that give the same values are the same. -/
theorem Keyed.sameMap_of_iff
    {α : Type}
    {m n : Keyed α}
    (hSame :
      ∀ key value,
        m.get? key = some value ↔ n.get? key = some value) :
    m.SameMap n :=
  fun key => Option.ext (hSame key)

namespace Index

variable {c : Context} {i : Index} {k : Snapshot}

/- A source of a settled snapshot is remembered. -/
theorem IsSettled.found_eq
    (hSettled : IsSettled c k)
    {source : Source}
    (hSource : source ∈ sourcesOf c) :
    found c (Memory.ofSnapshot k) source =
      .ok ⟨Memory.symbolsOf k source.path, []⟩ := by
  unfold found
  rw [Memory.symbols?_of_records hSettled.toIsConsistent
    ((hSettled.recorded _ _).mpr ⟨source, hSource, rfl, rfl⟩)]

theorem IsSettled.finds_iff
    (hSettled : IsSettled c k)
    {source : Source}
    (hSource : source ∈ sourcesOf c)
    (symbol : String) :
    Finds c k source symbol ↔ k.Maps source.path symbol := by
  rw [Index.finds_iff (hSettled.found_eq hSource),
    Memory.mem_symbolsOf_iff]

/- Entries are those of sources that are remembered. -/
theorem IsSettled.symbols_iff
    (hSettled : IsSettled c k)
    (symbol : String)
    (entry : Entry) :
    k.symbols.get? symbol = some entry ↔
      ∃ source ∈ sourcesOf c,
        Finds c k source symbol ∧ entry = entryOf source := by
  constructor
  · intro hSymbol
    rcases (hSettled.recorded entry.file entry.mtime).mp
        (Or.inr ⟨symbol, hSymbol⟩) with
      ⟨source, hSource, hPath, hTime⟩
    refine ⟨source, hSource, ?_, ?_⟩
    · apply (hSettled.finds_iff hSource symbol).mpr
      refine ⟨entry.mtime, ?_⟩
      rw [hPath]
      exact hSymbol
    · unfold entryOf
      rw [hPath, hTime]
  · rintro ⟨source, hSource, hFinds, rfl⟩
    rcases (hSettled.finds_iff hSource symbol).mp hFinds with
      ⟨time, hSymbol⟩
    have hTime : Present c source.path time :=
      (hSettled.recorded _ _).mp (Or.inr ⟨symbol, hSymbol⟩)
    rw [hTime.unique ⟨source, hSource, rfl, rfl⟩] at hSymbol
    exact hSymbol

/- Empty files are the sources without symbols. -/
theorem IsSettled.emptyFiles_iff
    (hSettled : IsSettled c k)
    (file : String)
    (mtime : Int) :
    k.emptyFiles.get? file = some mtime ↔
      ∃ source ∈ sourcesOf c,
        FindsNothing c k source ∧
          source.path = file ∧ source.mtime = mtime := by
  constructor
  · intro hEmpty
    rcases (hSettled.recorded file mtime).mp (Or.inl hEmpty) with
      ⟨source, hSource, rfl, rfl⟩
    refine ⟨source, hSource, ?_, rfl, rfl⟩
    apply (findsNothing_iff (hSettled.found_eq hSource)).mpr
    apply List.eq_nil_iff_forall_not_mem.mpr
    intro symbol hMem
    exact hSettled.apart _ _ symbol hEmpty
      (Memory.mem_symbolsOf_iff.mp hMem)
  · rintro ⟨source, hSource, hNothing, rfl, rfl⟩
    have hNone :=
      (findsNothing_iff (hSettled.found_eq hSource)).mp hNothing
    rcases (hSettled.recorded _ _).mpr
        ⟨source, hSource, rfl, rfl⟩ with
      hEmpty | ⟨symbol, hSymbol⟩
    · exact hEmpty
    · have hMem : symbol ∈ Memory.symbolsOf k source.path :=
        Memory.mem_symbolsOf_iff.mpr ⟨source.mtime, hSymbol⟩
      have hNoSymbol : Memory.symbolsOf k source.path = [] := hNone
      rw [hNoSymbol] at hMem
      cases hMem

/-
  A rebuild of what is settled succeeds. No file is scanned, and
  the same is known as before.
-/
theorem rebuild_of_settled
    (hSettled : IsSettled c i.known)
    (hWhole : IsWhole c) :
    ∃ final,
      rebuild c i = .ok () final ∧
      final.known.SameMaps i.known ∧
      final.scanned = i.scanned := by
  have hApart :
      (sourcesOf c).Pairwise fun source other =>
        ∀ symbol,
          Finds c i.known source symbol →
          ¬ Finds c i.known other symbol := by
    refine (pairwise_sourcesOf c).imp_of_mem ?_
    intro source other hSource hOther hPaths symbol hFinds hToo
    rcases (hSettled.finds_iff hSource symbol).mp hFinds with
      ⟨mtime, hSymbol⟩
    rcases (hSettled.finds_iff hOther symbol).mp hToo with
      ⟨time, hAgain⟩
    rw [hSymbol, Option.some.injEq, Entry.mk.injEq] at hAgain
    exact hPaths hAgain.1
  have hLoops :
      ∃ middle,
        (sourcesOf c).forM
          (takeIn c (Memory.ofSnapshot i.known)) i.begun =
            .ok () middle := by
    refine forM_takeIn_isOk_iff.mpr ⟨?_, ?_, hApart⟩
    · intro source hSource
      exact ⟨_, hSettled.found_eq hSource⟩
    · intro source _ symbol _
      rfl
  rcases hLoops with ⟨middle, hLoop⟩
  have hRebuild := rebuild_of_ok hLoop
  rw [hWhole] at hRebuild
  refine ⟨_, hRebuild, ⟨?_, ?_, ?_⟩, ?_⟩
  · apply Keyed.sameMap_of_iff
    intro symbol entry
    rw [hSettled.symbols_iff symbol entry]
    exact symbols_rebuilt_iff hRebuild symbol entry
  · apply Keyed.sameMap_of_iff
    intro symbol misses
    dsimp only
    rw [missing_forM_takeIn hLoop symbol misses]
    refine and_iff_left_of_imp ?_
    intro hMisses source hSource hFinds
    rcases (hSettled.finds_iff hSource symbol).mp hFinds with
      ⟨mtime, hSymbol⟩
    rw [show i.begun.known.missing = i.known.missing from rfl,
      hSettled.disjoint symbol _ hSymbol] at hMisses
    cases hMisses
  · apply Keyed.sameMap_of_iff
    intro file mtime
    rw [hSettled.emptyFiles_iff file mtime]
    exact emptyFiles_rebuilt_iff hRebuild file mtime
  · rw [scanned_forM_takeIn hLoop,
      flatMap_scansOf hSettled.toIsConsistent]
    have hNone :
        (sourcesOf c).filter (fun source =>
          ¬ i.known.Records source.path source.mtime) = [] := by
      apply List.filter_eq_nil_iff.mpr
      intro source hSource hNot
      exact of_decide_eq_true hNot
        ((hSettled.recorded _ _).mpr ⟨source, hSource, rfl, rfl⟩)
    rw [hNone, List.map_nil, List.append_nil]
    rfl

end Index

end SymbolAtlas
