import SymbolAtlas.Proofs.Index.Loop
import SymbolAtlas.Proofs.Index.Views
import SymbolAtlas.Proofs.Search.Findings

/-
  What a rebuild does to each file.

  After a rebuild a file is known with all the symbols that it
  was found to declare, or not at all. Only the source at which
  an error stops the rebuild may be left with some of its
  symbols.

  Key definitions:
    * `Index.AsFound`, `Index.StopsAt`
  Key theorems:
    * `Index.has_of_mem`, `Index.has_of_not_mem`
    * `Index.StopsAt.views`
    * `Index.asFound_or_stopsAt`
    * `Index.isFile_of_rebuild`
-/

------------------------------------------------------------
-- Rounds That Succeed
------------------------------------------------------------

namespace SymbolAtlas

namespace Index

variable {c : Context} {i middle : Index} {before : List Source}

/- A source that was taken in has all that it was found to. -/
theorem has_of_mem
    (hSources : ∀ source ∈ before, source ∈ sourcesOf c)
    (hPaths : before.Pairwise (·.path ≠ ·.path))
    (hLoop :
      before.forM (takeIn c (Memory.ofSnapshot i.known))
        i.begun = .ok () middle)
    {source : Source}
    (hSource : source ∈ before) :
    ∃ result,
      found c (Memory.ofSnapshot i.known) source = .ok result ∧
      middle.known.Has source.path source.mtime result.symbols
        (Snapshot.emptyTime result.symbols source.mtime) := by
  have hSame :
      ∀ other ∈ before, other.path = source.path →
        other = source :=
    fun other hOther hPath =>
      Sources.eq_of_mem_firsts (hSources other hOther)
        (hSources source hSource) hPath
  rcases (forM_takeIn_isOk_iff.mp ⟨middle, hLoop⟩).1 source
      hSource with ⟨result, hFound⟩
  refine ⟨result, hFound, ?_, ?_⟩
  · intro symbol time
    rw [symbols_forM_takeIn hLoop, ← finds_iff hFound]
    simp only [begun, Keyed.get?_empty, reduceCtorEq, false_or]
    constructor
    · rintro ⟨other, hOther, hFinds, hEntry⟩
      simp only [entryOf, Entry.mk.injEq] at hEntry
      have hEq := hSame other hOther hEntry.1.symm
      subst hEq
      exact ⟨hFinds, hEntry.2⟩
    · rintro ⟨hFinds, rfl⟩
      exact ⟨source, hSource, hFinds, rfl⟩
  · apply Option.ext
    intro time
    rw [emptyFiles_forM_takeIn hPaths hLoop]
    simp only [begun, Keyed.get?_empty, reduceCtorEq, false_and,
      or_false, Snapshot.emptyTime]
    constructor
    · rintro ⟨other, hOther, hNothing, hPath, rfl⟩
      have hEq := hSame other hOther hPath
      subst hEq
      rw [if_pos ((findsNothing_iff hFound).mp hNothing)]
    · intro hTime
      split at hTime
      · next hEmpty =>
          cases hTime
          exact ⟨source, hSource,
            (findsNothing_iff hFound).mpr hEmpty, rfl, rfl⟩
      · cases hTime

/- Nothing is known of files that were not taken in. -/
theorem has_of_not_mem
    (hPaths : before.Pairwise (·.path ≠ ·.path))
    (hLoop :
      before.forM (takeIn c (Memory.ofSnapshot i.known))
        i.begun = .ok () middle)
    {file : String}
    (hFile : ∀ source ∈ before, source.path ≠ file)
    (mtime : Int) :
    middle.known.Has file mtime [] none := by
  refine ⟨?_, ?_⟩
  · intro symbol time
    rw [symbols_forM_takeIn hLoop]
    simp only [begun, Keyed.get?_empty, reduceCtorEq, false_or,
      List.not_mem_nil, false_and, iff_false]
    rintro ⟨source, hSource, -, hEntry⟩
    simp only [entryOf, Entry.mk.injEq] at hEntry
    exact hFile source hSource hEntry.1.symm
  · rw [Option.eq_none_iff_forall_ne_some]
    intro time hTime
    rw [emptyFiles_forM_takeIn hPaths hLoop] at hTime
    simp only [begun, Keyed.get?_empty, reduceCtorEq, false_and,
      or_false] at hTime
    rcases hTime with ⟨source, hSource, -, hPath, -⟩
    exact hFile source hSource hPath

/-
  Nothing is known of the file, or all that it was found to
  declare as a source.
-/
def AsFound
    (c : Context)
    (i : Index)
    (k : Snapshot)
    (file : String) : Prop :=
  k.Has file 0 [] none ∨
  ∃ source ∈ sourcesOf c, source.path = file ∧
    ∃ result,
      found c (Memory.ofSnapshot i.known) source = .ok result ∧
      k.Has source.path source.mtime result.symbols
        (Snapshot.emptyTime result.symbols source.mtime)

theorem AsFound.of_sameFile
    {k l : Snapshot}
    {file : String}
    (hFound : AsFound c i k file)
    (hSame : k.SameFile l file) :
    AsFound c i l file := by
  rcases hFound with hNone |
    ⟨source, hSource, rfl, result, hOk, hHas⟩
  · exact Or.inl (hNone.of_sameFile hSame)
  · exact Or.inr ⟨source, hSource, rfl, result, hOk,
      hHas.of_sameFile hSame⟩

/- Rounds that succeed leave every file as it was found. -/
theorem asFound_of_loop
    (hSources : ∀ source ∈ before, source ∈ sourcesOf c)
    (hPaths : before.Pairwise (·.path ≠ ·.path))
    (hLoop :
      before.forM (takeIn c (Memory.ofSnapshot i.known))
        i.begun = .ok () middle)
    (file : String) :
    AsFound c i middle.known file := by
  by_cases hFile : ∃ source ∈ before, source.path = file
  · rcases hFile with ⟨source, hSource, hPath⟩
    exact Or.inr ⟨source, hSources source hSource, hPath,
      has_of_mem hSources hPaths hLoop hSource⟩
  · left
    refine has_of_not_mem hPaths hLoop ?_ 0
    intro source hSource hPath
    exact hFile ⟨source, hSource, hPath⟩

end Index

end SymbolAtlas

------------------------------------------------------------
-- The Round That Fails
------------------------------------------------------------

namespace SymbolAtlas

namespace Index

section Entering

variable {i : Index} {m : Memory} {source : Source}
variable {result : Scan.Result} {symbols : List String}
variable (hSome : result.symbols ≠ [])

include hSome

/- Some symbols of a source are entered for its file. -/
theorem has_received_enteredAll
    (hGone : i.known.Has source.path source.mtime [] none) :
    ((i.received m source result).enteredAll (entryOf source)
      symbols).known.Has source.path source.mtime symbols
        none := by
  refine ⟨?_, ?_⟩
  · intro symbol time
    rw [symbols_enteredAll]
    have hNone := hGone.entries symbol time
    simp only [List.not_mem_nil, false_and, iff_false] at hNone
    split
    · next hSymbol => simp [hSymbol, entryOf, eq_comm]
    · next hSymbol =>
        simp only [hSymbol, false_and, iff_false]
        exact hNone
  · rw [emptyFiles_enteredAll]
    simp only [received, List.isEmpty_iff, hSome, if_false]
    exact hGone.emptyAt

/- No other file is touched by free symbols. -/
theorem sameFile_received_enteredAll
    (hFree :
      ∀ symbol ∈ symbols, i.known.symbols.get? symbol = none)
    {file : String}
    (hFile : file ≠ source.path) :
    i.known.SameFile
      ((i.received m source result).enteredAll (entryOf source)
        symbols).known file := by
  refine ⟨?_, ?_⟩
  · intro symbol time
    rw [symbols_enteredAll]
    split
    · next hSymbol =>
        rw [hFree symbol hSymbol]
        simp only [reduceCtorEq, false_iff, Option.some.injEq]
        intro hEntry
        simp only [entryOf, Entry.mk.injEq] at hEntry
        exact hFile hEntry.1.symm
    · rfl
  · rw [emptyFiles_enteredAll]
    simp [received, hSome]

end Entering

/-
  An error stops a rebuild at a source: those before it were
  taken in, and this one is not.
-/
def StopsAt
    (c : Context)
    (i : Index)
    (source : Source)
    (final : Index) : Prop :=
  ∃ before after middle error,
    sourcesOf c = before ++ source :: after ∧
    before.forM (takeIn c (Memory.ofSnapshot i.known)) i.begun =
      .ok () middle ∧
    takeIn c (Memory.ofSnapshot i.known) source middle =
      .error error final

variable {c : Context} {i : Index}

theorem StopsAt.rebuild_eq
    {source : Source}
    {final : Index}
    (hStops : StopsAt c i source final) :
    ∃ error, rebuild c i = .error error final := by
  rcases hStops with
    ⟨before, after, middle, error, hSplit, hBefore, hTake⟩
  refine ⟨error, rebuild_of_error ?_⟩
  rw [hSplit, Work.forM_append hBefore,
    Work.forM_cons_of_error hTake]

theorem StopsAt.mem
    {source : Source}
    {final : Index}
    (hStops : StopsAt c i source final) :
    source ∈ sourcesOf c := by
  rcases hStops with ⟨before, after, _, _, hSplit, -, -⟩
  simp [hSplit]

/-
  Where a rebuild stops the source has the symbols before the
  one that is in conflict, or none. All other files are as they
  were found.
-/
theorem StopsAt.views
    {source : Source}
    {final : Index}
    (hStops : StopsAt c i source final) :
    (final.known.Has source.path source.mtime [] none ∨
      ∃ result before symbol after,
        found c (Memory.ofSnapshot i.known) source =
          .ok result ∧
        result.symbols = before ++ symbol :: after ∧
        final.known.Has source.path source.mtime before none) ∧
    ∀ file, file ≠ source.path →
      AsFound c i final.known file := by
  rcases hStops with
    ⟨before, after, middle, error, hSplit, hBefore, hTake⟩
  have hDistinct := Sources.pairwise_firsts []
    (Sources.ofSettings c.disk c.settings).items
  change (sourcesOf c).Pairwise _ at hDistinct
  have hSources : ∀ other ∈ before, other ∈ sourcesOf c := by
    intro other hOther
    rw [hSplit]
    exact List.mem_append_left _ hOther
  rw [hSplit, List.pairwise_append] at hDistinct
  have hGone :
      middle.known.Has source.path source.mtime [] none := by
    refine has_of_not_mem hDistinct.1 hBefore ?_ source.mtime
    intro other hOther
    exact hDistinct.2.2 other hOther source List.mem_cons_self
  have hMiddle := asFound_of_loop hSources hDistinct.1 hBefore
  rcases takeIn_eq_error hTake with ⟨-, hKnown⟩ |
    ⟨result, entered, symbol, rest, previous, hFound, hSymbols,
      hFree, -, -, rfl⟩
  · rw [hKnown]
    exact ⟨Or.inl hGone, fun file _ => hMiddle file⟩
  · have hSome : result.symbols ≠ [] := by
      simp [hSymbols]
    refine ⟨Or.inr ⟨result, entered, symbol, rest, hFound,
      hSymbols, has_received_enteredAll hSome hGone⟩, ?_⟩
    intro file hFile
    exact (hMiddle file).of_sameFile
      (sameFile_received_enteredAll hSome hFree hFile)

/-
  A rebuild leaves every file as it was found, but for the
  source at which it stops.
-/
theorem asFound_or_stopsAt
    (c : Context)
    (i : Index)
    (file : String) :
    AsFound c i (Work.stateAfter (rebuild c i)).known file ∨
    ∃ source, source.path = file ∧
      StopsAt c i source (Work.stateAfter (rebuild c i)) := by
  rcases Work.forM_cases (takeIn c (Memory.ofSnapshot i.known))
      (sourcesOf c) i.begun with
    ⟨final, hLoop⟩ |
    ⟨before, source, after, middle, error, final, hSplit,
      hBefore, hFails, hLoop⟩
  · left
    have hKnown :
        (Work.stateAfter (rebuild c i)).known = final.known := by
      rw [rebuild_of_ok hLoop]
      cases (Sources.ofSettings c.disk c.settings).failure <;> rfl
    rw [hKnown]
    exact asFound_of_loop (fun _ hSource => hSource)
      (Sources.pairwise_firsts [] _) hLoop file
  · have hStops : StopsAt c i source final :=
      ⟨before, after, middle, error, hSplit, hBefore, hFails⟩
    rw [rebuild_of_error hLoop]
    by_cases hFile : file = source.path
    · exact Or.inr ⟨source, hFile.symm, hStops⟩
    · exact Or.inl (hStops.views.2 file hFile)

/- After a successful rebuild every entry leads to a file. -/
theorem isFile_of_rebuild
    {final : Index}
    (hRebuild : rebuild c i = .ok () final)
    {symbol : String}
    {entry : Entry}
    (hEntry : final.known.symbols.get? symbol = some entry) :
    c.disk.isFile entry.file = true := by
  obtain ⟨file, mtime⟩ := entry
  have hFound :
      AsFound c i final.known file := by
    rcases asFound_or_stopsAt c i file with hFound |
      ⟨source, -, hStops⟩
    · rw [hRebuild] at hFound
      exact hFound
    · rcases hStops.rebuild_eq with ⟨error, hError⟩
      rw [hRebuild] at hError
      cases hError
  rcases hFound with hNone | ⟨source, hSource, rfl, -⟩
  · have hMem := (hNone.entries symbol mtime).mp hEntry
    exact absurd hMem.1 List.not_mem_nil
  · have hStat := Sources.stat_of_mem_ofSettings
      (Sources.firsts_subset hSource)
    exact Disk.isFile_of_stat hStat

end Index

end SymbolAtlas
