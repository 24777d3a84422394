import SymbolAtlas.Proofs.Index.Memory
import SymbolAtlas.Proofs.Index.Rounds

/-
  Rebuilding from what is known is rebuilding from nothing.

  A rebuild takes the symbols of an unchanged file from memory
  instead of scanning it. If the snapshot it starts from is
  complete, every source brings the same symbols either way, so
  the two rebuilds go side by side, source by source: they end
  with the same maps or with the same kind of error. All that
  differs is which files are scanned.

  Key definitions:
    * `Error.SameKind`, `Index.Alike`
    * `Index.IsComplete`, `Index.unrecorded`
  Key theorems:
    * `Index.forM_takeIn_alike`
    * `Index.scanned_forM_takeIn`
    * `Index.rebuild_alike_rebuild_cleared`
-/

------------------------------------------------------------
-- Outcomes Side by Side
------------------------------------------------------------

namespace SymbolAtlas

/-
  The same error, or two conflicts over symbols, which may be
  reported for different symbols.
-/
def Error.SameKind (e f : Error) : Prop :=
  e = f ∨ (e.family = .ambiguity ∧ f.family = .ambiguity)

namespace Index

/- Both indexes know the same symbols and empty files. -/
def SameFiles (i j : Index) : Prop :=
  i.known.symbols.SameMap j.known.symbols ∧
    i.known.emptyFiles.SameMap j.known.emptyFiles

/- Work on two indexes ends alike. -/
def Alike :
    EStateM.Result Error Index Unit →
      EStateM.Result Error Index Unit → Prop
| .ok _ i, .ok _ j => SameFiles i j
| .error e _, .error f _ => e.SameKind f
| _, _ => False

/- Claims of the same symbols end alike, whatever their order. -/
theorem forM_claim_alike
    {source : Source}
    {symbols others : List String}
    {i j : Index}
    (hSame : SameFiles i j)
    (hSymbols : symbols.Nodup)
    (hOthers : others.Nodup)
    (hMem : ∀ symbol, symbol ∈ symbols ↔ symbol ∈ others) :
    Alike (symbols.forM (claim source) i)
      (others.forM (claim source) j) := by
  by_cases hFree :
      ∀ symbol ∈ symbols, i.known.symbols.get? symbol = none
  · have hFreeToo :
        ∀ symbol ∈ others,
          j.known.symbols.get? symbol = none := by
      intro symbol hSymbol
      rw [← hSame.1 symbol]
      exact hFree symbol ((hMem symbol).mpr hSymbol)
    rw [forM_claim_of_free hSymbols hFree,
      forM_claim_of_free hOthers hFreeToo]
    constructor
    · intro symbol
      simp only [symbols_enteredAll, hMem, hSame.1 symbol]
    · intro file
      simp only [emptyFiles_enteredAll]
      exact hSame.2 file
  · have hTaken :
        ∃ symbol ∈ symbols,
          i.known.symbols.get? symbol ≠ none := by
      simpa using hFree
    have hTakenToo :
        ∃ symbol ∈ others,
          j.known.symbols.get? symbol ≠ none := by
      rcases hTaken with ⟨symbol, hSymbol, hSome⟩
      refine ⟨symbol, (hMem symbol).mp hSymbol, ?_⟩
      rwa [← hSame.1 symbol]
    rcases forM_claim_of_taken hSymbols hTaken with
      ⟨_, _, _, _, -, -, -, hLoop⟩
    rcases forM_claim_of_taken hOthers hTakenToo with
      ⟨_, _, _, _, -, -, -, hLoopToo⟩
    rw [hLoop, hLoopToo]
    exact Or.inr ⟨rfl, rfl⟩

/- Both ways to find the symbols of a source agree. -/
def FoundAlike (c : Context) (m n : Memory) (source : Source) :
    Prop :=
  (∃ error,
    found c m source = .error error ∧
    found c n source = .error error) ∨
  ∃ result other,
    found c m source = .ok result ∧
    found c n source = .ok other ∧
    result.symbols.Nodup ∧ other.symbols.Nodup ∧
    ∀ symbol, symbol ∈ result.symbols ↔ symbol ∈ other.symbols

/- One source is taken in alike if it is found alike. -/
theorem takeIn_alike
    {c : Context}
    {m n : Memory}
    {source : Source}
    {i j : Index}
    (hFound : FoundAlike c m n source)
    (hSame : SameFiles i j) :
    Alike (takeIn c m source i) (takeIn c n source j) := by
  rcases hFound with ⟨error, hLeft, hRight⟩ |
    ⟨result, other, hLeft, hRight, hResult, hOther, hMem⟩
  · rw [takeIn_of_error hLeft, takeIn_of_error hRight]
    exact Or.inl rfl
  · rw [takeIn_of_ok hLeft, takeIn_of_ok hRight]
    have hEmpty :
        result.symbols.isEmpty = other.symbols.isEmpty := by
      rw [Bool.eq_iff_iff, List.isEmpty_iff, List.isEmpty_iff,
        List.eq_nil_iff_forall_not_mem,
        List.eq_nil_iff_forall_not_mem]
      simp only [hMem]
    refine forM_claim_alike ⟨hSame.1, ?_⟩ hResult hOther hMem
    intro file
    simp only [received, hEmpty]
    split
    · simp only [Keyed.get?_insert, hSame.2 file]
    · exact hSame.2 file

/- Sources that are found alike are taken in alike. -/
theorem forM_takeIn_alike
    {c : Context}
    {m n : Memory}
    {sources : List Source}
    {i j : Index}
    (hFound : ∀ source ∈ sources, FoundAlike c m n source)
    (hSame : SameFiles i j) :
    Alike (sources.forM (takeIn c m) i)
      (sources.forM (takeIn c n) j) := by
  induction sources generalizing i j with
  | nil => exact hSame
  | cons source rest ih =>
      have hStep :=
        takeIn_alike (hFound source List.mem_cons_self) hSame
      have hRest : ∀ other ∈ rest, FoundAlike c m n other :=
        fun other hOther =>
          hFound other (List.mem_cons_of_mem _ hOther)
      cases hLeft : takeIn c m source i with
      | ok value next =>
          cases hRight : takeIn c n source j with
          | ok other nextToo =>
              rw [hLeft, hRight] at hStep
              rw [Work.forM_cons_of_ok hLeft,
                Work.forM_cons_of_ok hRight]
              exact ih hRest hStep
          | error error final =>
              rw [hLeft, hRight] at hStep
              exact hStep.elim
      | error error final =>
          cases hRight : takeIn c n source j with
          | ok other nextToo =>
              rw [hLeft, hRight] at hStep
              exact hStep.elim
          | error errorToo finalToo =>
              rw [hLeft, hRight] at hStep
              rw [Work.forM_cons_of_error hLeft,
                Work.forM_cons_of_error hRight]
              exact hStep

end Index

end SymbolAtlas

------------------------------------------------------------
-- Scans
------------------------------------------------------------

namespace SymbolAtlas

namespace Index

/- Claims scan nothing. -/
theorem scanned_of_forM_claim
    {source : Source}
    {symbols : List String}
    {i final : Index}
    (hLoop : symbols.forM (claim source) i = .ok () final) :
    final.scanned = i.scanned := by
  have hAfter :
      (Work.stateAfter
        (symbols.forM (claim source) i)).scanned =
          i.scanned := by
    apply Work.forM_preserves
      (fun j : Index => j.scanned = i.scanned)
    · intro symbol _ j hScanned
      cases hEntry : j.known.symbols.get? symbol with
      | none =>
          rw [claim_of_none hEntry]
          exact hScanned
      | some previous =>
          rw [claim_of_some hEntry]
          exact hScanned
    · rfl
  rw [hLoop] at hAfter
  exact hAfter

/- A loop that gets through scans what it does not remember. -/
theorem scanned_forM_takeIn
    {c : Context}
    {m : Memory}
    {sources : List Source}
    {i final : Index}
    (hLoop : sources.forM (takeIn c m) i = .ok () final) :
    final.scanned = i.scanned ++ sources.flatMap (scansOf m) := by
  induction sources generalizing i with
  | nil =>
      cases hLoop
      simp
  | cons source rest ih =>
      cases hTake : takeIn c m source i with
      | error error next =>
          rw [Work.forM_cons_of_error hTake] at hLoop
          cases hLoop
      | ok value next =>
          rw [Work.forM_cons_of_ok hTake] at hLoop
          have hNext :
              next.scanned = i.scanned ++ scansOf m source := by
            cases hFound : found c m source with
            | error error =>
                rw [takeIn_of_error hFound] at hTake
                cases hTake
            | ok result =>
                rw [takeIn_of_ok hFound] at hTake
                rw [scanned_of_forM_claim hTake]
                rfl
          rw [ih hLoop, hNext, List.flatMap_cons,
            List.append_assoc]

end Index

end SymbolAtlas

------------------------------------------------------------
-- Complete Snapshots
------------------------------------------------------------

namespace SymbolAtlas

namespace Index

/-
  Every source that is recorded as it is now has exactly the
  symbols that a scan of it reports.
-/
def IsComplete (c : Context) (k : Snapshot) : Prop :=
  ∀ source ∈ sourcesOf c,
    k.Records source.path source.mtime →
      ∃ result,
        reported c source = .ok result ∧
        ∀ symbol,
          k.Maps source.path symbol ↔ symbol ∈ result.symbols

instance
    (c : Context)
    (k : Snapshot) :
    Decidable (IsComplete c k) :=
  decidable_of_iff
    (∀ source ∈ sourcesOf c,
      k.Records source.path source.mtime →
        ∃ result ∈ (reported c source).toOption,
          ∀ symbol ∈
              Memory.symbolsOf k source.path ++ result.symbols,
            k.Maps source.path symbol ↔
              symbol ∈ result.symbols) (by
    unfold IsComplete
    refine forall₂_congr fun source _ => imp_congr_right fun _ => ?_
    cases hReported : reported c source with
    | error error => simp [Except.toOption]
    | ok result =>
        simp only [Except.toOption, Option.mem_def,
          Option.some.injEq, exists_eq_left', List.mem_append,
          Memory.mem_symbolsOf_iff, Except.ok.injEq]
        grind)

/- The sources that a snapshot does not record as they are. -/
def unrecorded (c : Context) (k : Snapshot) : List Source :=
  (sourcesOf c).filter fun source =>
    ¬ k.Records source.path source.mtime

/- The memory of a complete snapshot finds what scans report. -/
theorem foundAlike_of_isComplete
    {c : Context}
    {k : Snapshot}
    (hComplete : IsComplete c k)
    {source : Source}
    (hSource : source ∈ sourcesOf c) :
    FoundAlike c (Memory.ofSnapshot k) (Memory.ofSnapshot {})
      source := by
  have hFull := found_of_empty c .empty source
  cases hMemory : (Memory.ofSnapshot k).symbols? source with
  | some symbols =>
      rcases Memory.symbols?_eq_some hMemory with
        ⟨rfl, hRecords⟩
      have hRecords : k.Records source.path source.mtime :=
        hRecords.symm.imp And.right id
      rcases hComplete source hSource hRecords with
        ⟨result, hReported, hMaps⟩
      right
      refine ⟨⟨Memory.symbolsOf k source.path, []⟩, result,
        ?_, hFull.trans hReported,
        Memory.nodup_symbolsOf k source.path,
        Scan.nodup_run hReported, ?_⟩
      · simp only [found, hMemory]
      · intro symbol
        rw [← hMaps symbol]
        exact Memory.mem_symbolsOf_iff
  | none =>
      have hFound :
          found c (Memory.ofSnapshot k) source =
            reported c source := by
        simp only [found, hMemory]
      cases hReported : reported c source with
      | error error =>
          left
          exact ⟨error, hFound.trans hReported,
            hFull.trans hReported⟩
      | ok result =>
          right
          have hNodup := Scan.nodup_run hReported
          exact ⟨result, result, hFound.trans hReported,
            hFull.trans hReported, hNodup, hNodup,
            fun _ => Iff.rfl⟩

/- The sources that are scanned are those not recorded. -/
theorem flatMap_scansOf
    {k : Snapshot}
    (hConsistent : k.IsConsistent)
    (sources : List Source) :
    sources.flatMap (scansOf (Memory.ofSnapshot k)) =
      (sources.filter fun source =>
        ¬ k.Records source.path source.mtime).map
          fun source => Scan.ofPath source.path source.alone := by
  induction sources with
  | nil => rfl
  | cons source rest ih =>
      rw [List.flatMap_cons, ih]
      by_cases hRecords : k.Records source.path source.mtime
      · simp [scansOf, hRecords,
          Memory.symbols?_of_records hConsistent hRecords]
      · simp [scansOf, hRecords,
          Memory.symbols?_of_not_records hConsistent hRecords]

end Index

end SymbolAtlas

------------------------------------------------------------
-- Both Rebuilds
------------------------------------------------------------

namespace SymbolAtlas

namespace Index

/-
  From a consistent and complete snapshot a rebuild ends as it
  does from nothing: both succeed with the same maps, or both
  end with the same kind of error. A rebuild that succeeds
  scans each source that is not recorded, once, and no other.
-/
theorem rebuild_alike_rebuild_cleared
    (c : Context)
    (i : Index)
    (hConsistent : i.known.IsConsistent)
    (hComplete : IsComplete c i.known) :
    (∃ final full,
      rebuild c i = .ok () final ∧
      (do clear; rebuild c : Work Unit) i = .ok () full ∧
      final.known.symbols.SameMap full.known.symbols ∧
      final.known.emptyFiles.SameMap full.known.emptyFiles ∧
      final.scanned =
        i.scanned ++
          (unrecorded c i.known).map fun source =>
            Scan.ofPath source.path source.alone) ∨
    ∃ error errorToo final full,
      rebuild c i = .error error final ∧
      (do clear; rebuild c : Work Unit) i =
        .error errorToo full ∧
      error.SameKind errorToo := by
  let cleared := i.withoutFiles .empty
  rw [clear_then]
  have hLoops :
      Alike
        ((sourcesOf c).forM
          (takeIn c (Memory.ofSnapshot i.known)) i.begun)
        ((sourcesOf c).forM
          (takeIn c (Memory.ofSnapshot {})) cleared.begun) := by
    apply forM_takeIn_alike
    · intro source hSource
      exact foundAlike_of_isComplete hComplete hSource
    · exact ⟨fun _ => rfl, fun _ => rfl⟩
  cases hLeft :
      (sourcesOf c).forM
        (takeIn c (Memory.ofSnapshot i.known)) i.begun with
  | ok value final =>
      cases hRight :
          (sourcesOf c).forM
            (takeIn c (Memory.ofSnapshot {})) cleared.begun with
      | error error full =>
          rw [hLeft, hRight] at hLoops
          exact hLoops.elim
      | ok other full =>
          rw [hLeft, hRight] at hLoops
          have hRebuild := rebuild_of_ok hLeft
          have hFull : rebuild c cleared = _ := rebuild_of_ok hRight
          cases hFailure :
              (Sources.ofSettings c.disk c.settings).failure with
          | some error =>
              -- Both lists of sources are cut short alike.
              rw [hFailure] at hRebuild hFull
              right
              exact ⟨error, error, final, full, hRebuild, hFull,
                Or.inl rfl⟩
          | none =>
              rw [hFailure] at hRebuild hFull
              left
              refine ⟨_, _, hRebuild, hFull, hLoops.1, hLoops.2, ?_⟩
              rw [scanned_forM_takeIn hLeft,
                flatMap_scansOf hConsistent]
              rfl
  | error error final =>
      cases hRight :
          (sourcesOf c).forM
            (takeIn c (Memory.ofSnapshot {})) cleared.begun with
      | ok other full =>
          rw [hLeft, hRight] at hLoops
          exact hLoops.elim
      | error errorToo full =>
          rw [hLeft, hRight] at hLoops
          right
          exact ⟨error, errorToo, final, full,
            rebuild_of_error hLeft, rebuild_of_error hRight,
            hLoops⟩

/- A root that is known, one that has changed, and a new file. -/
def threeSources : Context where
  disk :=
    { nodes := [
        (["w"], .newDirectory),
        (["w", "a.php"], .file "<?php class A {}".toUTF8 5),
        (["w", "b.php"], .file "<?php class B {}".toUTF8 7),
        (["w", "c.php"], .file .empty 9)] }
  settings :=
    { projectDir := "/w"
      roots := ["a.php", "b.php"]
      files := ["c.php"] }
  strict := true

/- What was known when the second root declared other symbols. -/
def beforeTheChange : Index where
  known :=
    { symbols := .ofList [
        ("A", ⟨"/w/a.php", 5⟩),
        ("Old", ⟨"/w/b.php", 6⟩)] }

theorem rebuild_alike_after_change :
    beforeTheChange.known.IsConsistent ∧
    IsComplete threeSources beforeTheChange.known ∧
    ∃ final full,
      rebuild threeSources beforeTheChange = .ok () final ∧
      (do clear; rebuild threeSources : Work Unit)
        beforeTheChange = .ok () full ∧
      final.known.symbols.SameMap full.known.symbols ∧
      final.known.emptyFiles.SameMap full.known.emptyFiles ∧
      final.scanned =
        [⟨"/w/b.php", false⟩, ⟨"/w/c.php", true⟩] := by
  have hConsistent : beforeTheChange.known.IsConsistent := by
    decide +kernel
  have hComplete :
      IsComplete threeSources beforeTheChange.known := by
    decide +kernel
  have hScans :
      (unrecorded threeSources beforeTheChange.known).map
          (fun source => Scan.ofPath source.path source.alone) =
        [⟨"/w/b.php", false⟩, ⟨"/w/c.php", true⟩] := by
    decide +kernel
  refine ⟨hConsistent, hComplete, ?_⟩
  rcases rebuild_alike_rebuild_cleared threeSources
      beforeTheChange hConsistent hComplete with
    hOk | ⟨error, _, final, _, hError, -, -⟩
  · rw [hScans] at hOk
    exact hOk
  · have hSucceeds :
        (rebuild threeSources beforeTheChange matches
          .ok _ _) = true := by
      decide +kernel
    rw [hError] at hSucceeds
    cases hSucceeds

end Index

end SymbolAtlas
