import SymbolAtlas.Index.Rebuild
import SymbolAtlas.Proofs.Work

/-
  What the steps of an index do to its state.

  A source is taken in by finding its symbols, which are
  remembered or scanned, and claiming them one by one. Claims
  go on until a symbol is met that has an entry already.

  Key definitions:
    * `Index.entered`, `Index.enteredAll`
    * `Index.found`, `Index.scansOf`, `Index.received`
  Key theorems:
    * `Index.forM_claim_of_free`, `Index.forM_claim_of_taken`
    * `Index.takeIn_of_error`, `Index.takeIn_of_ok`
-/

------------------------------------------------------------
-- Entering
------------------------------------------------------------

namespace SymbolAtlas

namespace Index

/- The index with one more entry. -/
def entered (i : Index) (symbol : String) (entry : Entry) : Index :=
  { i with
    known :=
      { i.known with
        symbols := i.known.symbols.insert symbol entry
        missing := i.known.missing.erase symbol } }

/- The index with an entry for each of some symbols. -/
def enteredAll (i : Index) (entry : Entry) (symbols : List String) :
    Index :=
  symbols.foldl (fun i symbol => i.entered symbol entry) i

@[simp] theorem enteredAll_nil
    (i : Index)
    (entry : Entry) :
    i.enteredAll entry [] = i :=
  rfl

@[simp] theorem enteredAll_cons
    (i : Index)
    (entry : Entry)
    (symbol : String)
    (symbols : List String) :
    i.enteredAll entry (symbol :: symbols) =
      (i.entered symbol entry).enteredAll entry symbols :=
  rfl

@[simp] theorem emptyFiles_enteredAll
    (i : Index)
    (entry : Entry)
    (symbols : List String) :
    (i.enteredAll entry symbols).known.emptyFiles =
      i.known.emptyFiles := by
  induction symbols generalizing i with
  | nil => rfl
  | cons symbol rest ih => exact ih _

/- The symbols entered have the entry, all others keep theirs. -/
@[simp] theorem symbols_enteredAll
    (i : Index)
    (entry : Entry)
    (symbols : List String)
    (symbol : String) :
    (i.enteredAll entry symbols).known.symbols.get? symbol =
      if symbol ∈ symbols then some entry
      else i.known.symbols.get? symbol := by
  induction symbols generalizing i with
  | nil => simp
  | cons first rest ih =>
      rw [enteredAll_cons, ih]
      simp only [entered, Keyed.get?_insert, List.mem_cons]
      grind

/- The symbols entered are not missing any more. -/
@[simp] theorem missing_enteredAll
    (i : Index)
    (entry : Entry)
    (symbols : List String)
    (symbol : String) :
    (i.enteredAll entry symbols).known.missing.get? symbol =
      if symbol ∈ symbols then none
      else i.known.missing.get? symbol := by
  induction symbols generalizing i with
  | nil => simp
  | cons first rest ih =>
      rw [enteredAll_cons, ih]
      simp only [entered, Keyed.get?_erase, List.mem_cons]
      grind

/- An index that knows of no file, whatever it misses. -/
def withoutFiles (i : Index) (missing : Keyed Int) : Index :=
  { i with known := ⟨.empty, missing, .empty⟩ }

/- A cleared index knows of no file and misses nothing. -/
theorem clear_then
    {α : Type}
    (work : Work α)
    (i : Index) :
    (do clear; work : Work α) i = work (i.withoutFiles .empty) :=
  rfl

end Index

end SymbolAtlas

------------------------------------------------------------
-- Claims
------------------------------------------------------------

namespace SymbolAtlas

namespace Index

/- The entry that a source gives to its symbols. -/
def entryOf (source : Source) : Entry :=
  ⟨source.path, source.mtime⟩

theorem claim_of_none
    {source : Source}
    {symbol : String}
    {i : Index}
    (hFree : i.known.symbols.get? symbol = none) :
    claim source symbol i =
      .ok () (i.entered symbol (entryOf source)) := by
  have hEntry : entry? symbol i = .ok none i := by
    rw [← hFree]
    rfl
  unfold claim
  rw [Work.bind_of_ok hEntry]
  rfl

theorem claim_of_some
    {source : Source}
    {symbol : String}
    {previous : Entry}
    {i : Index}
    (hTaken : i.known.symbols.get? symbol = some previous) :
    claim source symbol i =
      .error (.ambiguous symbol previous.file source.path) i := by
  have hEntry : entry? symbol i = .ok (some previous) i := by
    rw [← hTaken]
    rfl
  unfold claim
  rw [Work.bind_of_ok hEntry]
  rfl

/- Symbols that nobody has can all be claimed. -/
theorem forM_claim_of_free
    {source : Source}
    {symbols : List String}
    {i : Index}
    (hNodup : symbols.Nodup)
    (hFree :
      ∀ symbol ∈ symbols,
        i.known.symbols.get? symbol = none) :
    symbols.forM (claim source) i =
      .ok () (i.enteredAll (entryOf source) symbols) := by
  induction symbols generalizing i with
  | nil => rfl
  | cons first rest ih =>
      have hFirst := hFree first List.mem_cons_self
      rw [Work.forM_cons_of_ok (claim_of_none hFirst)]
      rw [List.nodup_cons] at hNodup
      apply ih hNodup.2
      intro symbol hSymbol
      have hNe : symbol ≠ first := by
        rintro rfl
        exact hNodup.1 hSymbol
      simp only [entered, Keyed.get?_insert, if_neg hNe]
      exact hFree symbol (List.mem_cons_of_mem _ hSymbol)

/-
  Claims stop at the first symbol that has an entry. The
  symbols before it stay entered.
-/
theorem forM_claim_of_taken
    {source : Source}
    {symbols : List String}
    {i : Index}
    (hNodup : symbols.Nodup)
    (hTaken :
      ∃ symbol ∈ symbols,
        i.known.symbols.get? symbol ≠ none) :
    ∃ before symbol after previous,
      symbols = before ++ symbol :: after ∧
      (∀ other ∈ before,
        i.known.symbols.get? other = none) ∧
      i.known.symbols.get? symbol = some previous ∧
      symbols.forM (claim source) i =
        .error (.ambiguous symbol previous.file source.path)
          (i.enteredAll (entryOf source) before) := by
  -- The list is cut at the first symbol with an entry.
  induction symbols generalizing i with
  | nil => simp at hTaken
  | cons first rest ih =>
      rw [List.nodup_cons] at hNodup
      cases hFirst : i.known.symbols.get? first with
      | some previous =>
          exact ⟨[], first, rest, previous, rfl, by simp, hFirst,
            Work.forM_cons_of_error (claim_of_some hFirst) rest⟩
      | none =>
          have hView :
              ∀ symbol ∈ rest,
                (i.entered first
                    (entryOf source)).known.symbols.get? symbol =
                  i.known.symbols.get? symbol := by
            intro symbol hSymbol
            have hNe : symbol ≠ first := by
              rintro rfl
              exact hNodup.1 hSymbol
            simp only [entered, Keyed.get?_insert, if_neg hNe]
          have hRest :
              ∃ symbol ∈ rest,
                (i.entered first
                    (entryOf source)).known.symbols.get? symbol ≠
                  none := by
            rcases hTaken with ⟨symbol, hMem, hSome⟩
            rcases List.mem_cons.mp hMem with rfl | hMem
            · exact absurd hFirst hSome
            · exact ⟨symbol, hMem, by rwa [hView symbol hMem]⟩
          rcases ih hNodup.2 hRest with
            ⟨before, symbol, after, previous, hSplit, hBefore,
              hSymbol, hLoop⟩
          have hInRest : ∀ other ∈ before, other ∈ rest := by
            intro other hOther
            rw [hSplit]
            exact List.mem_append_left _ hOther
          refine ⟨first :: before, symbol, after, previous,
            ?_, ?_, ?_, ?_⟩
          · rw [hSplit, List.cons_append]
          · intro other hOther
            rcases List.mem_cons.mp hOther with rfl | hOther
            · exact hFirst
            · rw [← hView other (hInRest other hOther)]
              exact hBefore other hOther
          · rw [← hView symbol (by rw [hSplit]; simp)]
            exact hSymbol
          · rw [Work.forM_cons_of_ok (claim_of_none hFirst)]
            exact hLoop

end Index

end SymbolAtlas

------------------------------------------------------------
-- Taking in a Source
------------------------------------------------------------

namespace SymbolAtlas

namespace Index

/- What a scan of a source reports. -/
def reported (c : Context) (source : Source) :
    Except Error Scan.Result :=
  (Scan.ofPath source.path source.alone).run c.disk c.strict

/- What a source is found to declare, remembered or scanned. -/
def found (c : Context) (m : Memory) (source : Source) :
    Except Error Scan.Result :=
  match m.symbols? source with
  | some symbols => .ok ⟨symbols, []⟩
  | none => reported c source

/- Without a memory every source is scanned. -/
theorem found_of_empty
    (c : Context)
    (missing : Keyed Int)
    (source : Source) :
    found c (Memory.ofSnapshot ⟨.empty, missing, .empty⟩)
        source =
      reported c source :=
  rfl

/- The scans that taking in a source makes. -/
def scansOf (m : Memory) (source : Source) : List Scan :=
  if (m.symbols? source).isSome then []
  else [Scan.ofPath source.path source.alone]

/- The index after a source was looked at and nothing claimed. -/
def received
    (i : Index)
    (m : Memory)
    (source : Source)
    (result : Scan.Result) : Index :=
  { i with
    known :=
      { i.known with
        emptyFiles :=
          if result.symbols.isEmpty then
            i.known.emptyFiles.insert source.path source.mtime
          else i.known.emptyFiles }
    scanned := i.scanned ++ scansOf m source
    notices := i.notices ++ result.notices }

theorem scan_eq
    (c : Context)
    (path : String)
    (alone : Bool)
    (i : Index) :
    scan c path alone i =
      match (Scan.ofPath path alone).run c.disk c.strict with
      | .ok result =>
          .ok result.symbols
            { i with
              scanned := i.scanned ++ [Scan.ofPath path alone]
              notices := i.notices ++ result.notices }
      | .error error =>
          .error error
            { i with
              scanned := i.scanned ++ [Scan.ofPath path alone] } := by
  cases hRun : (Scan.ofPath path alone).run c.disk c.strict with
  | ok result =>
      simp [scan, hRun, liftError, tell, Work.modify_eq, bind,
        EStateM.bind, pure, EStateM.pure]
  | error error =>
      simp [scan, hRun, liftError, Work.modify_eq, Work.throw_eq,
        bind, EStateM.bind]

/- A source that cannot be scanned changes no entry. -/
theorem takeIn_of_error
    {c : Context}
    {m : Memory}
    {source : Source}
    {error : Error}
    (hFound : found c m source = .error error)
    (i : Index) :
    takeIn c m source i =
      .error error
        { i with scanned := i.scanned ++ scansOf m source } := by
  unfold found at hFound
  cases hMemory : m.symbols? source with
  | some symbols => simp [hMemory] at hFound
  | none =>
      simp only [hMemory, reported] at hFound
      simp [takeIn, scansOf, hMemory, bind, EStateM.bind,
        scan_eq, hFound]

/- The symbols of a source are claimed once they are found. -/
theorem takeIn_of_ok
    {c : Context}
    {m : Memory}
    {source : Source}
    {result : Scan.Result}
    (hFound : found c m source = .ok result)
    (i : Index) :
    takeIn c m source i =
      result.symbols.forM (claim source)
        (i.received m source result) := by
  unfold found at hFound
  cases hMemory : m.symbols? source with
  | some symbols =>
      simp only [hMemory, Except.ok.injEq] at hFound
      subst hFound
      cases symbols <;>
        simp [takeIn, scansOf, hMemory, bind, EStateM.bind,
          received, noteEmpty, revise, Work.modify_eq, pure,
          EStateM.pure]
  | none =>
      simp only [hMemory, reported] at hFound
      rcases result with ⟨symbols, notices⟩
      cases symbols <;>
        simp [takeIn, scansOf, hMemory, bind, EStateM.bind,
          scan_eq, hFound, received, noteEmpty, revise,
          Work.modify_eq, pure, EStateM.pure]

end Index

end SymbolAtlas
