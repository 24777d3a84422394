import SymbolAtlas.Index.Lookup
import SymbolAtlas.Proofs.Index.Rebuilds
import SymbolAtlas.Proofs.Index.Updates

/-
  What a look-up does to each file.

  A look-up rebuilds the index, updates one file, drops one
  entry or leaves all files as they are. Which of these it does
  can be told from the index and the disk.

  Key definitions:
    * `Index.Rescans`, `Index.Renews`, `Index.Drops`
  Key theorems:
    * `Index.lookup_of_rescans`, `Index.lookup_of_renews`
    * `Index.lookup_of_drops`
    * `Index.lookup_otherwise`
-/

------------------------------------------------------------
-- Ways to Look Up
------------------------------------------------------------

namespace SymbolAtlas

namespace Index

/- The look-up may bring the index up to date. -/
def MaySearch (c : Context) (i : Index) (symbol : String) : Prop :=
  (i.known.missing.get? symbol).getD 0 < retryLimit ∧
    c.settings.autoRebuild = true

/- The symbol leads nowhere, and there was no rebuild yet. -/
def Rescans (c : Context) (i : Index) (symbol : String) : Prop :=
  MaySearch c i symbol ∧
    isLive c.disk (i.known.symbols.get? symbol) = false ∧
    i.session.refreshed = false

/- The file of the symbol has drifted. -/
def Renews
    (c : Context)
    (i : Index)
    (symbol : String)
    (entry : Entry) : Prop :=
  MaySearch c i symbol ∧
    i.known.symbols.get? symbol = some entry ∧
    c.disk.isFile entry.file = true ∧
    hasDrifted c.disk entry = true

/- The file of the symbol is gone, and there was a rebuild. -/
def Drops
    (c : Context)
    (i : Index)
    (symbol : String)
    (entry : Entry) : Prop :=
  MaySearch c i symbol ∧
    i.known.symbols.get? symbol = some entry ∧
    c.disk.isFile entry.file = false ∧
    i.session.refreshed = true

end Index

end SymbolAtlas

------------------------------------------------------------
-- Answers
------------------------------------------------------------

namespace SymbolAtlas

namespace Index

/- What a look-up does with the entry that it ends up with. -/
def answer
    (c : Context)
    (symbol : String)
    (misses : Int)
    (entry : Option Entry) : Work (Option String) := do
  if c.settings.autoRebuild && !isLive c.disk entry then
    miss symbol misses
    return none
  match entry with
  | none => return none
  | some found =>
      hit symbol
      return some (Path.normal found.file)

variable {c : Context} {symbol : String} {i : Index}

/- A look-up answers once the index is up to date. -/
theorem lookup_of_maySearch
    (hSearch : MaySearch c i symbol) :
    lookup c symbol i =
      (bringUpToDate c symbol >>=
        answer c symbol
          ((i.known.missing.get? symbol).getD 0)) i := by
  have hFew :
      ¬ (i.known.missing.get? symbol).getD 0 ≥ retryLimit := by
    have hLess := hSearch.1
    omega
  unfold lookup
  change (if (i.known.missing.get? symbol).getD 0 ≥ retryLimit
    then _ else _ : Work (Option String)) i = _
  refine (congrFun (if_neg hFew) i).trans ?_
  exact congrFun (if_pos hSearch.2) i

/- Otherwise it answers with what is known, or not at all. -/
theorem lookup_of_not_maySearch
    (hSearch : ¬ MaySearch c i symbol) :
    lookup c symbol i =
      if (i.known.missing.get? symbol).getD 0 ≥ retryLimit then
        .ok none i
      else
        answer c symbol ((i.known.missing.get? symbol).getD 0)
          (i.known.symbols.get? symbol) i := by
  by_cases hMany :
      (i.known.missing.get? symbol).getD 0 ≥ retryLimit
  · rw [if_pos hMany]
    unfold lookup
    change (if (i.known.missing.get? symbol).getD 0 ≥ retryLimit
      then _ else _ : Work (Option String)) i = _
    simp only [if_pos hMany]
    rfl
  · have hAuto : c.settings.autoRebuild = false := by
      by_contra hNot
      refine hSearch ⟨by omega, by simpa using hNot⟩
    rw [if_neg hMany]
    unfold lookup answer
    change (if (i.known.missing.get? symbol).getD 0 ≥ retryLimit
      then _ else _ : Work (Option String)) i = _
    simp only [if_neg hMany, hAuto, Bool.false_and,
      Bool.false_eq_true, if_false]
    rfl

theorem hit_eq
    (symbol : String)
    (i : Index) :
    hit symbol i =
      .ok ()
        (if i.known.missing.contains symbol then
          { i with
            known :=
              { i.known with
                missing := i.known.missing.erase symbol }
            session := { i.session with dirty := true } }
        else i) := by
  simp only [hit, bind, EStateM.bind, Work.get_eq]
  split <;> rfl

/- An answer that is no miss leaves all files alone. -/
theorem sameFile_answer
    {entry : Option Entry}
    (hNoMiss :
      (c.settings.autoRebuild && !isLive c.disk entry) = false)
    (misses : Int)
    (file : String) :
    i.known.SameFile
      (Work.stateAfter (answer c symbol misses entry i)).known
      file := by
  unfold answer
  simp only [hNoMiss, Bool.false_eq_true, if_false]
  cases entry with
  | none => exact Snapshot.SameFile.refl _ _
  | some found =>
      dsimp only
      rw [Work.bind_of_ok (hit_eq symbol i)]
      change i.known.SameFile
        (if i.known.missing.contains symbol then _ else _ :
          Index).known file
      split <;> exact ⟨fun _ _ => Iff.rfl, rfl⟩

/- An answer without a live entry drops the symbol. -/
theorem known_answer_of_not_isLive
    {entry : Option Entry}
    (hAuto : c.settings.autoRebuild = true)
    (hLive : isLive c.disk entry = false)
    (misses : Int) :
    (Work.stateAfter
        (answer c symbol misses entry i)).known.symbols =
      i.known.symbols.erase symbol ∧
    (Work.stateAfter
        (answer c symbol misses entry i)).known.emptyFiles =
      i.known.emptyFiles := by
  unfold answer
  simp only [hAuto, hLive, Bool.not_false, Bool.and_true,
    if_true]
  exact ⟨rfl, rfl⟩

/- A symbol that nobody has can be dropped from all files. -/
theorem sameFile_answer_of_none
    (hAuto : c.settings.autoRebuild = true)
    (hNone : i.known.symbols.get? symbol = none)
    (misses : Int)
    (file : String) :
    i.known.SameFile
      (Work.stateAfter (answer c symbol misses none i)).known
      file := by
  have hKnown :
      (Work.stateAfter
          (answer c symbol misses none i)).known.symbols =
        i.known.symbols.erase symbol ∧
      (Work.stateAfter
          (answer c symbol misses none i)).known.emptyFiles =
        i.known.emptyFiles :=
    known_answer_of_not_isLive hAuto rfl misses
  refine ⟨?_, by rw [hKnown.2]⟩
  intro name time
  rw [hKnown.1, Keyed.get?_erase]
  split
  · next hName => rw [hName, hNone]
  · rfl

end Index

end SymbolAtlas

------------------------------------------------------------
-- Bringing Up to Date
------------------------------------------------------------

namespace SymbolAtlas

namespace Index

variable {c : Context} {symbol : String} {i : Index}

/- The index with something to save. -/
def dirtied (i : Index) : Index :=
  { i with session := { i.session with dirty := true } }

theorem bringUpToDate_of_rescans
    (hRescans : Rescans c i symbol) :
    bringUpToDate c symbol i =
      match rebuild c i with
      | .error error final => .error error final
      | .ok _ final =>
          .ok (final.known.symbols.get? symbol) final.dirtied := by
  rcases hRescans with ⟨-, hLive, hRefreshed⟩
  have hRescan :
      ∀ entry,
        bringUpToDate.rescan c symbol entry i =
          match rebuild c i with
          | .error error final => .error error final
          | .ok _ final =>
              .ok (final.known.symbols.get? symbol)
                final.dirtied := by
    intro entry
    simp only [bringUpToDate.rescan, refresh, bind, EStateM.bind,
      Work.get_eq, hRefreshed, Bool.false_eq_true, if_false,
      Bool.not_false, if_true]
    cases rebuild c i <;> rfl
  have hEntry :
      entry? symbol i = .ok (i.known.symbols.get? symbol) i := rfl
  unfold bringUpToDate
  rw [Work.bind_of_ok hEntry]
  cases hSymbol : i.known.symbols.get? symbol with
  | none => exact hRescan none
  | some entry =>
      rw [hSymbol] at hLive
      change c.disk.isFile entry.file = false at hLive
      simp only [hLive, Bool.false_eq_true, if_false]
      exact hRescan (some entry)

theorem bringUpToDate_of_renews
    {entry : Entry}
    (hRenews : Renews c i symbol entry) :
    bringUpToDate c symbol i =
      match update c entry.file i with
      | .error error final => .error error final
      | .ok _ final =>
          .ok (final.known.symbols.get? symbol) final.dirtied := by
  rcases hRenews with ⟨-, hSymbol, hFile, hDrifted⟩
  have hEntry : entry? symbol i = .ok (some entry) i := by
    rw [← hSymbol]
    rfl
  unfold bringUpToDate
  rw [Work.bind_of_ok hEntry]
  simp only [hFile, hDrifted, if_true, bind, EStateM.bind]
  cases update c entry.file i <;> rfl

/- Nothing is scanned if the entry is good, or it is too late. -/
theorem bringUpToDate_otherwise
    (hSearch : MaySearch c i symbol)
    (hRescans : ¬ Rescans c i symbol)
    (hRenews : ∀ entry, ¬ Renews c i symbol entry) :
    bringUpToDate c symbol i =
      .ok (i.known.symbols.get? symbol) i := by
  have hEntry :
      entry? symbol i = .ok (i.known.symbols.get? symbol) i := rfl
  have hRescan :
      isLive c.disk (i.known.symbols.get? symbol) = false →
      ∀ entry,
        bringUpToDate.rescan c symbol entry i = .ok entry i := by
    intro hLive entry
    have hRefreshed : i.session.refreshed = true := by
      by_contra hNot
      exact hRescans ⟨hSearch, hLive, by simpa using hNot⟩
    simp only [bringUpToDate.rescan, bind, EStateM.bind,
      Work.get_eq, hRefreshed, if_true]
    rfl
  unfold bringUpToDate
  rw [Work.bind_of_ok hEntry]
  cases hSymbol : i.known.symbols.get? symbol with
  | none =>
      rw [hSymbol] at hRescan
      exact hRescan rfl none
  | some entry =>
      rw [hSymbol] at hRescan
      dsimp only
      cases hFile : c.disk.isFile entry.file with
      | false =>
          simp only [Bool.false_eq_true, if_false]
          exact hRescan hFile (some entry)
      | true =>
          have hUndrifted :
              hasDrifted c.disk entry = false := by
            by_contra hNot
            exact hRenews entry
              ⟨hSearch, hSymbol, hFile, by simpa using hNot⟩
          simp only [if_true, hUndrifted, Bool.false_eq_true,
            if_false]
          change entry? symbol i = _
          rw [hEntry, hSymbol]

end Index

end SymbolAtlas

------------------------------------------------------------
-- Files After a Look-Up
------------------------------------------------------------

namespace SymbolAtlas

namespace Index

variable {c : Context} {symbol : String} {i : Index}

/-
  A look-up that brought the index up to date leaves the files
  as they are then, if no entry leads to a file that is gone.
-/
theorem sameFile_lookup
    {work : EStateM.Result Error Index Unit}
    (hSearch : MaySearch c i symbol)
    (hUpToDate :
      bringUpToDate c symbol i =
        match work with
        | .error error final => .error error final
        | .ok _ final =>
            .ok (final.known.symbols.get? symbol) final.dirtied)
    (hLive :
      ∀ final entry,
        work = .ok () final →
        final.known.symbols.get? symbol = some entry →
          c.disk.isFile entry.file = true)
    (file : String) :
    (Work.stateAfter work).known.SameFile
      (Work.stateAfter (lookup c symbol i)).known file := by
  rw [lookup_of_maySearch hSearch]
  cases work with
  | error error final =>
      rw [Work.bind_of_error hUpToDate]
      exact Snapshot.SameFile.refl _ _
  | ok value final =>
      rw [Work.bind_of_ok hUpToDate]
      cases hEntry : final.known.symbols.get? symbol with
      | none =>
          exact sameFile_answer_of_none (i := final.dirtied)
            hSearch.2 hEntry _ file
      | some entry =>
          have hFile : isLive c.disk (some entry) = true :=
            hLive final entry rfl hEntry
          exact sameFile_answer (i := final.dirtied)
            (by simp [hFile]) _ file

/- A look-up that rebuilds leaves the files as the rebuild does. -/
theorem lookup_of_rescans
    (hRescans : Rescans c i symbol)
    (file : String) :
    (Work.stateAfter (rebuild c i)).known.SameFile
      (Work.stateAfter (lookup c symbol i)).known file :=
  sameFile_lookup hRescans.1 (bringUpToDate_of_rescans hRescans)
    (fun _ _ hRebuild hEntry =>
      isFile_of_rebuild hRebuild hEntry)
    file

/- After an update the symbol is in no file that is gone. -/
theorem isFile_of_update
    {entry other : Entry}
    {final : Index}
    (hSymbol : i.known.symbols.get? symbol = some entry)
    (hUpdate : update c entry.file i = .ok () final)
    (hOther : final.known.symbols.get? symbol = some other) :
    c.disk.isFile other.file = true := by
  obtain ⟨file, mtime⟩ := other
  change updateWithin c (i.known.symbols.size + 1) entry.file i =
    .ok () final at hUpdate
  have hNot :
      ∀ file,
        ¬ Interrupted c (i.known.symbols.size + 1) entry.file i
          file := by
    intro file hInterrupted
    rcases hInterrupted.isCut with ⟨error, last, hError, -⟩
    rw [hUpdate] at hError
    cases hError
  have hRenewed : Renewed c final.known file := by
    rcases settled_or_interrupted c (i.known.symbols.size + 1)
        entry.file i file with
      (hSame | hRenewed) | hInterrupted
    · -- Only the updated file had the symbol before.
      rw [hUpdate] at hSame
      have hBefore := (hSame.entries symbol mtime).mpr hOther
      rw [hSymbol, Option.some.injEq] at hBefore
      rcases renewed_or_interrupted c i.known.symbols.size
          entry.file i with
        hRenewed | hInterrupted
      · rw [hUpdate] at hRenewed
        rw [hBefore] at hRenewed
        exact hRenewed
      · exact absurd hInterrupted (hNot _)
    · rw [hUpdate] at hRenewed
      exact hRenewed
    · exact absurd hInterrupted (hNot _)
  rcases hRenewed with ⟨time, hNone⟩ |
    ⟨time, alone, result, hStat, -, -⟩
  · exact absurd ((hNone.entries symbol mtime).mp hOther).1
      List.not_mem_nil
  · exact Disk.isFile_of_stat hStat

/- A look-up that updates a file leaves them as the update does. -/
theorem lookup_of_renews
    {entry : Entry}
    (hRenews : Renews c i symbol entry)
    (file : String) :
    (Work.stateAfter (update c entry.file i)).known.SameFile
      (Work.stateAfter (lookup c symbol i)).known file :=
  sameFile_lookup hRenews.1 (bringUpToDate_of_renews hRenews)
    (fun _ _ hUpdate hOther =>
      isFile_of_update hRenews.2.1 hUpdate hOther)
    file

/- A look-up may drop an entry whose file is gone. -/
theorem lookup_of_drops
    {entry : Entry}
    (hDrops : Drops c i symbol entry) :
    (Work.stateAfter (lookup c symbol i)).known.symbols =
      i.known.symbols.erase symbol ∧
    (Work.stateAfter (lookup c symbol i)).known.emptyFiles =
      i.known.emptyFiles := by
  rcases hDrops with ⟨hSearch, hSymbol, hFile, hRefreshed⟩
  have hLive : isLive c.disk (some entry) = false := hFile
  have hUpToDate := bringUpToDate_otherwise hSearch
    (fun hRescans => by simp [hRescans.2.2] at hRefreshed)
    (fun other hRenews => by
      have hOther := hRenews.2.1
      rw [hSymbol, Option.some.injEq] at hOther
      subst hOther
      simp [hRenews.2.2.1] at hFile)
  rw [lookup_of_maySearch hSearch, Work.bind_of_ok hUpToDate,
    hSymbol]
  exact known_answer_of_not_isLive hSearch.2 hLive _

/- Any other look-up leaves all files alone. -/
theorem lookup_otherwise
    (hRescans : ¬ Rescans c i symbol)
    (hRenews : ∀ entry, ¬ Renews c i symbol entry)
    (hDrops : ∀ entry, ¬ Drops c i symbol entry)
    (file : String) :
    i.known.SameFile
      (Work.stateAfter (lookup c symbol i)).known file := by
  by_cases hSearch : MaySearch c i symbol
  · rw [lookup_of_maySearch hSearch, Work.bind_of_ok
      (bringUpToDate_otherwise hSearch hRescans hRenews)]
    cases hSymbol : i.known.symbols.get? symbol with
    | none =>
        exact sameFile_answer_of_none hSearch.2 hSymbol _ file
    | some entry =>
        have hLive : isLive c.disk (some entry) = true := by
          by_contra hNot
          have hGone : isLive c.disk (some entry) = false := by
            simpa using hNot
          have hRefreshed : i.session.refreshed = true := by
            by_contra hFirst
            refine hRescans ⟨hSearch, ?_, by simpa using hFirst⟩
            rw [hSymbol]
            exact hGone
          exact hDrops entry
            ⟨hSearch, hSymbol, hGone, hRefreshed⟩
        exact sameFile_answer (by simp [hLive]) _ file
  · rw [lookup_of_not_maySearch hSearch]
    split
    · exact Snapshot.SameFile.refl _ _
    · next hFew =>
        have hAuto : c.settings.autoRebuild = false := by
          by_contra hNot
          exact hSearch ⟨by omega, by simpa using hNot⟩
        exact sameFile_answer (by simp [hAuto]) _ file

end Index

end SymbolAtlas
