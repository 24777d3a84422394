import SymbolAtlas.Proofs.Index.Memory
import SymbolAtlas.Proofs.Index.Rounds

/-
  What the loop over sources leaves behind.

  The loop gets through if and only if every source is found to
  declare something or nothing, and every symbol is free when
  its source is taken in. What is known then is what was known
  before and what the sources declare.

  Key definitions:
    * `Index.Finds`, `Index.FindsNothing`
  Key theorems:
    * `Index.takeIn_eq_ok_iff`, `Index.takeIn_eq_error`
    * `Index.forM_takeIn_isOk_iff`
    * `Index.symbols_forM_takeIn`
    * `Index.emptyFiles_forM_takeIn`
    * `Index.missing_forM_takeIn`
-/

------------------------------------------------------------
-- Findings
------------------------------------------------------------

namespace SymbolAtlas

namespace Index

/- The source is found to declare the symbol. -/
def Finds
    (c : Context)
    (k : Snapshot)
    (source : Source)
    (symbol : String) : Prop :=
  ∃ result,
    found c (Memory.ofSnapshot k) source = .ok result ∧
    symbol ∈ result.symbols

/- The source is found to declare nothing. -/
def FindsNothing
    (c : Context)
    (k : Snapshot)
    (source : Source) : Prop :=
  ∃ result,
    found c (Memory.ofSnapshot k) source = .ok result ∧
    result.symbols = []

theorem finds_iff
    {c : Context}
    {k : Snapshot}
    {source : Source}
    {result : Scan.Result}
    (hFound : found c (Memory.ofSnapshot k) source = .ok result)
    (symbol : String) :
    Finds c k source symbol ↔ symbol ∈ result.symbols := by
  simp [Finds, hFound]

theorem findsNothing_iff
    {c : Context}
    {k : Snapshot}
    {source : Source}
    {result : Scan.Result}
    (hFound :
      found c (Memory.ofSnapshot k) source = .ok result) :
    FindsNothing c k source ↔ result.symbols = [] := by
  simp [FindsNothing, hFound]

/- No symbol is found twice in a source. -/
theorem nodup_found
    {c : Context}
    {k : Snapshot}
    {source : Source}
    {result : Scan.Result}
    (hFound :
      found c (Memory.ofSnapshot k) source = .ok result) :
    result.symbols.Nodup := by
  unfold found Memory.symbols? at hFound
  by_cases hTime :
      (Memory.ofSnapshot k).times.get? source.path =
        some source.mtime
  · rw [if_pos hTime, Memory.symbols_ofSnapshot] at hFound
    cases hFound
    exact Memory.nodup_symbolsOf k source.path
  · rw [if_neg hTime] at hFound
    exact Scan.nodup_run hFound

end Index

end SymbolAtlas

------------------------------------------------------------
-- One Source
------------------------------------------------------------

namespace SymbolAtlas

namespace Index

variable {c : Context} {k : Snapshot}

/- The index after a source was taken in. -/
def takenIn
    (i : Index)
    (k : Snapshot)
    (source : Source)
    (result : Scan.Result) : Index :=
  (i.received (Memory.ofSnapshot k) source result).enteredAll
    (entryOf source) result.symbols

/- A source is taken in if all its symbols are free. -/
theorem takeIn_eq_ok_iff
    {source : Source}
    {i final : Index} :
    takeIn c (Memory.ofSnapshot k) source i = .ok () final ↔
      ∃ result,
        found c (Memory.ofSnapshot k) source = .ok result ∧
        (∀ symbol ∈ result.symbols,
          i.known.symbols.get? symbol = none) ∧
        final = i.takenIn k source result := by
  cases hFound : found c (Memory.ofSnapshot k) source with
  | error error =>
      rw [takeIn_of_error hFound]
      simp
  | ok result =>
      rw [takeIn_of_ok hFound]
      have hNodup := nodup_found hFound
      by_cases hFree :
          ∀ symbol ∈ result.symbols,
            i.known.symbols.get? symbol = none
      · rw [forM_claim_of_free
          (i := i.received (Memory.ofSnapshot k) source result)
          hNodup hFree]
        constructor
        · intro hFinal
          cases hFinal
          exact ⟨result, rfl, hFree, rfl⟩
        · rintro ⟨_, hResult, -, rfl⟩
          cases hResult
          rfl
      · have hTaken :
            ∃ symbol ∈ result.symbols,
              i.known.symbols.get? symbol ≠ none := by
          simpa using hFree
        rcases forM_claim_of_taken
            (i := i.received (Memory.ofSnapshot k) source result)
            hNodup hTaken with
          ⟨_, _, _, _, -, -, -, hLoop⟩
        rw [hLoop]
        constructor
        · intro hFinal
          cases hFinal
        · rintro ⟨_, hResult, hAll, -⟩
          cases hResult
          exact absurd hAll hFree

/-
  A source that is not taken in cannot be scanned, or one of its
  symbols has an entry. Then only the symbols before that one
  are entered.
-/
theorem takeIn_eq_error
    {source : Source}
    {i final : Index}
    {error : Error}
    (hTake :
      takeIn c (Memory.ofSnapshot k) source i =
        .error error final) :
    (found c (Memory.ofSnapshot k) source = .error error ∧
      final.known = i.known) ∨
    ∃ result before symbol after previous,
      found c (Memory.ofSnapshot k) source = .ok result ∧
      result.symbols = before ++ symbol :: after ∧
      (∀ other ∈ before,
        i.known.symbols.get? other = none) ∧
      i.known.symbols.get? symbol = some previous ∧
      error = .ambiguous symbol previous.file source.path ∧
      final =
        (i.received (Memory.ofSnapshot k) source
          result).enteredAll (entryOf source) before := by
  cases hFound : found c (Memory.ofSnapshot k) source with
  | error other =>
      rw [takeIn_of_error hFound] at hTake
      cases hTake
      exact Or.inl ⟨rfl, rfl⟩
  | ok result =>
      rw [takeIn_of_ok hFound] at hTake
      have hNodup := nodup_found hFound
      by_cases hFree :
          ∀ symbol ∈ result.symbols,
            i.known.symbols.get? symbol = none
      · rw [forM_claim_of_free
          (i := i.received (Memory.ofSnapshot k) source result)
          hNodup hFree] at hTake
        cases hTake
      · have hTaken :
            ∃ symbol ∈ result.symbols,
              i.known.symbols.get? symbol ≠ none := by
          simpa using hFree
        rcases forM_claim_of_taken
            (i := i.received (Memory.ofSnapshot k) source result)
            hNodup hTaken with
          ⟨before, symbol, after, previous, hSplit, hBefore,
            hSymbol, hLoop⟩
        rw [hLoop] at hTake
        cases hTake
        exact Or.inr ⟨result, before, symbol, after, previous,
          rfl, hSplit, hBefore, hSymbol, rfl, rfl⟩

theorem symbols_takenIn
    (i : Index)
    (source : Source)
    (result : Scan.Result)
    (symbol : String) :
    (i.takenIn k source result).known.symbols.get? symbol =
      if symbol ∈ result.symbols then some (entryOf source)
      else i.known.symbols.get? symbol := by
  rw [takenIn, symbols_enteredAll]
  rfl

theorem missing_takenIn
    (i : Index)
    (source : Source)
    (result : Scan.Result)
    (symbol : String) :
    (i.takenIn k source result).known.missing.get? symbol =
      if symbol ∈ result.symbols then none
      else i.known.missing.get? symbol := by
  rw [takenIn, missing_enteredAll]
  rfl

theorem emptyFiles_takenIn
    (i : Index)
    (source : Source)
    (result : Scan.Result)
    (file : String) :
    (i.takenIn k source result).known.emptyFiles.get? file =
      if result.symbols = [] ∧ file = source.path then
        some source.mtime
      else i.known.emptyFiles.get? file := by
  rw [takenIn, emptyFiles_enteredAll]
  simp only [received, List.isEmpty_iff]
  by_cases hEmpty : result.symbols = []
  · simp [hEmpty, Keyed.get?_insert]
  · simp [hEmpty]

end Index

end SymbolAtlas

------------------------------------------------------------
-- All Sources
------------------------------------------------------------

namespace SymbolAtlas

namespace Index

variable {c : Context} {k : Snapshot}

/- A loop over one more source takes it in first. -/
theorem forM_takeIn_cons_iff
    {source : Source}
    {rest : List Source}
    {i final : Index} :
    (source :: rest).forM (takeIn c (Memory.ofSnapshot k)) i =
        .ok () final ↔
      ∃ result,
        found c (Memory.ofSnapshot k) source = .ok result ∧
        (∀ symbol ∈ result.symbols,
          i.known.symbols.get? symbol = none) ∧
        rest.forM (takeIn c (Memory.ofSnapshot k))
            (i.takenIn k source result) =
          .ok () final := by
  cases hTake : takeIn c (Memory.ofSnapshot k) source i with
  | ok value next =>
      rw [Work.forM_cons_of_ok hTake]
      rcases takeIn_eq_ok_iff.mp hTake with
        ⟨result, hFound, hFree, rfl⟩
      constructor
      · intro hRest
        exact ⟨result, hFound, hFree, hRest⟩
      · rintro ⟨other, hOther, -, hRest⟩
        rw [hFound, Except.ok.injEq] at hOther
        subst hOther
        exact hRest
  | error error next =>
      rw [Work.forM_cons_of_error hTake]
      constructor
      · intro hFinal
        cases hFinal
      · rintro ⟨result, hFound, hFree, -⟩
        have hOk := takeIn_eq_ok_iff.mpr
          ⟨result, hFound, hFree, rfl⟩
        rw [hTake] at hOk
        cases hOk

/-
  The loop gets through if every source is found, what it
  declares is not known before, and no two sources declare the
  same symbol.
-/
theorem forM_takeIn_isOk_iff
    {sources : List Source}
    {i : Index} :
    (∃ final,
      sources.forM (takeIn c (Memory.ofSnapshot k)) i =
        .ok () final) ↔
      (∀ source ∈ sources,
        ∃ result,
          found c (Memory.ofSnapshot k) source = .ok result) ∧
      (∀ source ∈ sources, ∀ symbol,
        Finds c k source symbol →
          i.known.symbols.get? symbol = none) ∧
      sources.Pairwise fun source other =>
        ∀ symbol,
          Finds c k source symbol → ¬ Finds c k other symbol := by
  induction sources generalizing i with
  | nil => simp
  | cons source rest ih =>
      simp only [forM_takeIn_cons_iff, List.forall_mem_cons,
        List.pairwise_cons]
      constructor
      · rintro ⟨final, result, hFound, hFree, hRest⟩
        rcases ih.mp ⟨final, hRest⟩ with
          ⟨hFoundRest, hFreeRest, hPairwise⟩
        -- What the rest declares is free behind the first source,
        -- so it is neither known before nor declared by that one.
        have hBehind :
            ∀ other ∈ rest, ∀ symbol,
              Finds c k other symbol →
                symbol ∉ result.symbols ∧
                  i.known.symbols.get? symbol = none := by
          intro other hOther symbol hFinds
          have hNone := hFreeRest other hOther symbol hFinds
          rw [symbols_takenIn] at hNone
          split at hNone
          · cases hNone
          · next hNew => exact ⟨hNew, hNone⟩
        refine ⟨⟨⟨result, hFound⟩, hFoundRest⟩, ⟨?_, ?_⟩, ?_,
          hPairwise⟩
        · intro symbol hFinds
          exact hFree symbol ((finds_iff hFound symbol).mp hFinds)
        · intro other hOther symbol hFinds
          exact (hBehind other hOther symbol hFinds).2
        · intro other hOther symbol hFinds hToo
          exact (hBehind other hOther symbol hToo).1
            ((finds_iff hFound symbol).mp hFinds)
      · rintro ⟨⟨⟨result, hFound⟩, hFoundRest⟩,
          ⟨hFree, hFreeRest⟩, hApart, hPairwise⟩
        have hRest :
            ∀ other ∈ rest, ∀ symbol,
              Finds c k other symbol →
                (i.takenIn k source result).known.symbols.get?
                  symbol = none := by
          intro other hOther symbol hFinds
          rw [symbols_takenIn, if_neg]
          · exact hFreeRest other hOther symbol hFinds
          · intro hMem
            exact hApart other hOther symbol
              ((finds_iff hFound symbol).mpr hMem) hFinds
        rcases ih.mpr ⟨hFoundRest, hRest, hPairwise⟩ with
          ⟨final, hFinal⟩
        refine ⟨final, result, hFound, ?_, hFinal⟩
        intro symbol hMem
        exact hFree symbol ((finds_iff hFound symbol).mpr hMem)

/- Entries are those from before and those of the sources. -/
theorem symbols_forM_takeIn
    {sources : List Source}
    {i final : Index}
    (hLoop :
      sources.forM (takeIn c (Memory.ofSnapshot k)) i =
        .ok () final)
    (symbol : String)
    (entry : Entry) :
    final.known.symbols.get? symbol = some entry ↔
      i.known.symbols.get? symbol = some entry ∨
      ∃ source ∈ sources,
        Finds c k source symbol ∧ entry = entryOf source := by
  induction sources generalizing i with
  | nil =>
      cases hLoop
      simp
  | cons source rest ih =>
      rcases forM_takeIn_cons_iff.mp hLoop with
        ⟨result, hFound, hFree, hRest⟩
      rw [ih hRest, symbols_takenIn]
      simp only [List.mem_cons, exists_eq_or_imp,
        finds_iff hFound]
      by_cases hMem : symbol ∈ result.symbols
      · simp only [hMem, if_true, Option.some.injEq, true_and,
          hFree symbol hMem]
        grind
      · simp [hMem]

/- What is missing is what was before, but for what is found. -/
theorem missing_forM_takeIn
    {sources : List Source}
    {i final : Index}
    (hLoop :
      sources.forM (takeIn c (Memory.ofSnapshot k)) i =
        .ok () final)
    (symbol : String)
    (misses : Int) :
    final.known.missing.get? symbol = some misses ↔
      i.known.missing.get? symbol = some misses ∧
      ∀ source ∈ sources, ¬ Finds c k source symbol := by
  induction sources generalizing i with
  | nil =>
      cases hLoop
      simp
  | cons source rest ih =>
      rcases forM_takeIn_cons_iff.mp hLoop with
        ⟨result, hFound, -, hRest⟩
      rw [ih hRest, missing_takenIn]
      simp only [List.forall_mem_cons, finds_iff hFound]
      by_cases hMem : symbol ∈ result.symbols
      · simp [hMem]
      · simp [hMem]

/- Empty files are those from before and the new ones. -/
theorem emptyFiles_forM_takeIn
    {sources : List Source}
    {i final : Index}
    (hPaths : sources.Pairwise (·.path ≠ ·.path))
    (hLoop :
      sources.forM (takeIn c (Memory.ofSnapshot k)) i =
        .ok () final)
    (file : String)
    (mtime : Int) :
    final.known.emptyFiles.get? file = some mtime ↔
      (∃ source ∈ sources,
        FindsNothing c k source ∧
        source.path = file ∧ source.mtime = mtime) ∨
      i.known.emptyFiles.get? file = some mtime ∧
      ∀ source ∈ sources,
        FindsNothing c k source → source.path ≠ file := by
  induction sources generalizing i with
  | nil =>
      cases hLoop
      simp
  | cons source rest ih =>
      rcases forM_takeIn_cons_iff.mp hLoop with
        ⟨result, hFound, -, hRest⟩
      rw [List.pairwise_cons] at hPaths
      rw [ih hPaths.2 hRest, emptyFiles_takenIn]
      simp only [List.mem_cons, exists_eq_or_imp,
        forall_eq_or_imp, findsNothing_iff hFound]
      by_cases hHere : result.symbols = [] ∧ file = source.path
      · rcases hHere with ⟨hEmpty, rfl⟩
        have hOther :
            ∀ other ∈ rest, other.path ≠ source.path :=
          fun other hOther => Ne.symm (hPaths.1 other hOther)
        grind
      · grind

end Index

end SymbolAtlas
