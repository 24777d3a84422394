import SymbolAtlas.Proofs.Index.Lookups

/-
  Calls of an index, whatever their outcome.

  After any call, one that ended in an error included, a file is
  known as before the call, as a scan of it reports, as it was
  found to be as a source, or it is the one where the call left
  off: the source or the file whose symbols were being entered
  when an error came, or the vanished file that lost a symbol.
  All symbols of a file carry one time, always.

  Key definitions:
    * `Index.Call`, `Index.Call.after`
    * `Index.LeavesOff`
  Key theorems:
    * `Index.call_cases`
    * `Index.LeavesOff.views`
    * `Index.isConsistent_after`
-/

------------------------------------------------------------
-- Calls
------------------------------------------------------------

namespace SymbolAtlas

namespace Index

/- What can be asked of an index. -/
inductive Call where
  | rebuild
  | update (file : String)
  | lookup (symbol : String)
deriving DecidableEq, Repr

/- The index after a call, whatever its outcome. -/
def Call.after (c : Context) (i : Index) : Call → Index
| .rebuild => Work.stateAfter (Index.rebuild c i)
| .update file => Work.stateAfter (Index.update c file i)
| .lookup symbol => Work.stateAfter (Index.lookup c symbol i)

/-
  A call leaves off at a file: an error comes while the symbols
  of the file are being entered, or one symbol of a file that is
  gone is dropped.
-/
inductive LeavesOff (c : Context) (i : Index) :
    Call → String → Prop
| rebuild {source : Source} {final : Index}
    (hStops : StopsAt c i source final) :
    LeavesOff c i .rebuild source.path
| update {file other : String}
    (hInterrupted :
      Interrupted c (i.known.symbols.size + 1) file i other) :
    LeavesOff c i (.update file) other
| rescan {symbol file : String}
    (hRescans : Rescans c i symbol)
    (hRebuild : LeavesOff c i .rebuild file) :
    LeavesOff c i (.lookup symbol) file
| renew {symbol file : String} {entry : Entry}
    (hRenews : Renews c i symbol entry)
    (hUpdate : LeavesOff c i (.update entry.file) file) :
    LeavesOff c i (.lookup symbol) file
| drop {symbol : String} {entry : Entry}
    (hDrops : Drops c i symbol entry) :
    LeavesOff c i (.lookup symbol) entry.file

variable {c : Context} {i : Index}

/- Dropping a symbol touches no file but the one it was in. -/
theorem sameFile_of_drops
    {symbol file : String}
    {entry : Entry}
    (hDrops : Drops c i symbol entry)
    (hFile : file ≠ entry.file) :
    i.known.SameFile (Call.after c i (.lookup symbol)).known
      file := by
  rcases lookup_of_drops hDrops with ⟨hSymbols, hEmpty⟩
  refine ⟨?_, ?_⟩
  · intro name time
    change _ ↔ (Work.stateAfter
      (lookup c symbol i)).known.symbols.get? name = _
    rw [hSymbols, Keyed.get?_erase]
    split
    · next hName =>
        rw [hName, hDrops.2.1]
        simp only [Option.some.injEq, reduceCtorEq, iff_false]
        rintro rfl
        exact hFile rfl
    · rfl
  · change _ = (Work.stateAfter
      (lookup c symbol i)).known.emptyFiles.get? file
    rw [hEmpty]

/-
  What a call does to a file: nothing, or the file is renewed,
  or it is as it was found, or the call left off there.
-/
theorem call_cases
    (c : Context)
    (i : Index)
    (call : Call)
    (file : String) :
    i.known.SameFile (call.after c i).known file ∨
    Renewed c (call.after c i).known file ∨
    AsFound c i (call.after c i).known file ∨
    LeavesOff c i call file := by
  have hRebuild :
      AsFound c i (Call.rebuild.after c i).known file ∨
      LeavesOff c i .rebuild file := by
    rcases asFound_or_stopsAt c i file with
      hFound | ⟨source, rfl, hStops⟩
    · exact Or.inl hFound
    · exact Or.inr (.rebuild hStops)
  have hUpdate :
      ∀ target,
        Settled c i.known
          ((Call.update target).after c i).known file ∨
        LeavesOff c i (.update target) file := by
    intro target
    rcases settled_or_interrupted c (i.known.symbols.size + 1)
        target i file with
      hSettled | hInterrupted
    · exact Or.inl hSettled
    · exact Or.inr (.update hInterrupted)
  cases call with
  | rebuild =>
      rcases hRebuild with hFound | hLeaves
      · exact Or.inr (Or.inr (Or.inl hFound))
      · exact Or.inr (Or.inr (Or.inr hLeaves))
  | update target =>
      rcases hUpdate target with (hSame | hRenewed) | hLeaves
      · exact Or.inl hSame
      · exact Or.inr (Or.inl hRenewed)
      · exact Or.inr (Or.inr (Or.inr hLeaves))
  | lookup symbol =>
      by_cases hRescans : Rescans c i symbol
      · have hSame := lookup_of_rescans hRescans file
        rcases hRebuild with hFound | hLeaves
        · exact Or.inr (Or.inr (Or.inl (hFound.of_sameFile hSame)))
        · exact Or.inr (Or.inr (Or.inr (.rescan hRescans hLeaves)))
      · by_cases hRenews : ∃ entry, Renews c i symbol entry
        · rcases hRenews with ⟨entry, hRenews⟩
          have hSame := lookup_of_renews hRenews file
          rcases hUpdate entry.file with
            (hBefore | hRenewed) | hLeaves
          · exact Or.inl (hBefore.trans hSame)
          · exact Or.inr (Or.inl (hRenewed.of_sameFile hSame))
          · exact Or.inr (Or.inr (Or.inr
              (.renew hRenews hLeaves)))
        · by_cases hDrops : ∃ entry, Drops c i symbol entry
          · rcases hDrops with ⟨entry, hDrops⟩
            by_cases hFile : file = entry.file
            · subst hFile
              exact Or.inr (Or.inr (Or.inr (.drop hDrops)))
            · exact Or.inl (sameFile_of_drops hDrops hFile)
          · exact Or.inl (lookup_otherwise hRescans
              (fun entry hEntry => hRenews ⟨entry, hEntry⟩)
              (fun entry hEntry => hDrops ⟨entry, hEntry⟩) file)

end Index

end SymbolAtlas

------------------------------------------------------------
-- Where a Call Leaves Off
------------------------------------------------------------

namespace SymbolAtlas

namespace Index

/-
  A file has some of the symbols that it was found to declare
  as a source, but not all.
-/
def IsPart
    (c : Context)
    (i : Index)
    (k : Snapshot)
    (file : String) : Prop :=
  ∃ source ∈ sourcesOf c, source.path = file ∧
    ∃ result before symbol after,
      found c (Memory.ofSnapshot i.known) source = .ok result ∧
      result.symbols = before ++ symbol :: after ∧
      k.Has source.path source.mtime before none

variable {c : Context} {i : Index}

theorem IsPart.of_sameFile
    {k l : Snapshot}
    {file : String}
    (hPart : IsPart c i k file)
    (hSame : k.SameFile l file) :
    IsPart c i l file := by
  rcases hPart with ⟨source, hSource, rfl, result, before, symbol,
    after, hFound, hSymbols, hHas⟩
  exact ⟨source, hSource, rfl, result, before, symbol, after,
    hFound, hSymbols, hHas.of_sameFile hSame⟩

theorem IsCut.of_sameFile
    {k l : Snapshot}
    {file : String}
    (hCut : IsCut c k file)
    (hSame : k.SameFile l file) :
    IsCut c l file := by
  rcases hCut with ⟨mtime, alone, result, before, symbol, after,
    hStat, hRun, hSymbols, hHas⟩
  exact ⟨mtime, alone, result, before, symbol, after, hStat,
    hRun, hSymbols, hHas.of_sameFile hSame⟩

/- Where a call leaves off the file has too few symbols. -/
theorem LeavesOff.views
    {call : Call}
    {file : String}
    (hLeaves : LeavesOff c i call file) :
    (∃ mtime, (call.after c i).known.Has file mtime [] none) ∨
    IsPart c i (call.after c i).known file ∨
    IsCut c (call.after c i).known file ∨
    ∃ symbol entry,
      call = .lookup symbol ∧ Drops c i symbol entry ∧
      entry.file = file := by
  have hStopped :
      ∀ {source final}, StopsAt c i source final →
        (∃ mtime,
          (Work.stateAfter (Index.rebuild c i)).known.Has
            source.path mtime [] none) ∨
        IsPart c i (Work.stateAfter (Index.rebuild c i)).known
          source.path := by
    intro source final hStops
    rcases hStops.rebuild_eq with ⟨error, hRebuild⟩
    rw [hRebuild]
    rcases hStops.views.1 with hNone |
      ⟨result, before, symbol, after, hFound, hSymbols, hHas⟩
    · exact Or.inl ⟨_, hNone⟩
    · exact Or.inr ⟨source, hStops.mem, rfl, result, before,
        symbol, after, hFound, hSymbols, hHas⟩
  have hCut :
      ∀ {target other},
        Interrupted c (i.known.symbols.size + 1) target i other →
          IsCut c
            (Work.stateAfter (Index.update c target i)).known
            other := by
    intro target other hInterrupted
    rcases hInterrupted.isCut with ⟨error, final, hUpdate, hCut⟩
    change IsCut c (Work.stateAfter (updateWithin c
      (i.known.symbols.size + 1) target i)).known other
    rw [hUpdate]
    exact hCut
  cases hLeaves with
  | rebuild hStops =>
      rcases hStopped hStops with hNone | hPart
      · exact Or.inl hNone
      · exact Or.inr (Or.inl hPart)
  | update hInterrupted =>
      exact Or.inr (Or.inr (Or.inl (hCut hInterrupted)))
  | rescan hRescans hRebuild =>
      have hSame := lookup_of_rescans hRescans file
      cases hRebuild with
      | rebuild hStops =>
          rcases hStopped hStops with ⟨mtime, hNone⟩ | hPart
          · exact Or.inl ⟨mtime, hNone.of_sameFile hSame⟩
          · exact Or.inr (Or.inl (hPart.of_sameFile hSame))
  | renew hRenews hUpdate =>
      have hSame := lookup_of_renews hRenews file
      cases hUpdate with
      | update hInterrupted =>
          exact Or.inr (Or.inr (Or.inl
            ((hCut hInterrupted).of_sameFile hSame)))
  | drop hDrops =>
      exact Or.inr (Or.inr (Or.inr ⟨_, _, rfl, hDrops, rfl⟩))

end Index

end SymbolAtlas

------------------------------------------------------------
-- Consistency
------------------------------------------------------------

namespace SymbolAtlas

namespace Snapshot

/- What consistency says about one file. -/
structure ConsistentAt (k : Snapshot) (file : String) : Prop where
  oneTime :
    ∀ symbol other mtime otherTime,
      k.symbols.get? symbol = some ⟨file, mtime⟩ →
      k.symbols.get? other = some ⟨file, otherTime⟩ →
      mtime = otherTime
  apart :
    ∀ mtime symbol,
      k.emptyFiles.get? file = some mtime →
      ¬ k.Maps file symbol

theorem isConsistent_iff
    {k : Snapshot} :
    k.IsConsistent ↔ ∀ file, k.ConsistentAt file := by
  constructor
  · intro hConsistent file
    exact ⟨fun symbol other mtime time hSymbol hOther =>
      hConsistent.oneTime symbol other file mtime time hSymbol
        hOther,
      fun mtime symbol => hConsistent.apart file mtime symbol⟩
  · intro hFiles
    exact ⟨fun symbol other file mtime time hSymbol hOther =>
      (hFiles file).oneTime symbol other mtime time hSymbol
        hOther,
      fun file mtime symbol => (hFiles file).apart mtime symbol⟩

theorem ConsistentAt.of_sameFile
    {k l : Snapshot}
    {file : String}
    (hConsistent : k.ConsistentAt file)
    (hSame : k.SameFile l file) :
    l.ConsistentAt file := by
  refine ⟨?_, ?_⟩
  · intro symbol other mtime time hSymbol hOther
    rw [← hSame.entries] at hSymbol hOther
    exact hConsistent.oneTime symbol other mtime time hSymbol
      hOther
  · intro mtime symbol hEmpty
    rw [← hSame.emptyAt] at hEmpty
    rw [← hSame.maps_iff]
    exact hConsistent.apart mtime symbol hEmpty

/- A file has one time, and is empty only without symbols. -/
theorem consistentAt_of_has
    {k : Snapshot}
    {file : String}
    {mtime : Int}
    {symbols : List String}
    {empty : Option Int}
    (hHas : k.Has file mtime symbols empty)
    (hEmpty : symbols = [] ∨ empty = none) :
    k.ConsistentAt file := by
  refine ⟨?_, ?_⟩
  · intro symbol other first second hSymbol hOther
    rw [((hHas.entries symbol first).mp hSymbol).2,
      ((hHas.entries other second).mp hOther).2]
  · intro time symbol hTime
    rw [hHas.emptyAt] at hTime
    rw [hHas.maps_iff]
    rcases hEmpty with rfl | rfl
    · exact List.not_mem_nil
    · cases hTime

theorem consistentAt_of_whole
    {k : Snapshot}
    {file : String}
    {mtime : Int}
    {symbols : List String}
    (hHas :
      k.Has file mtime symbols (emptyTime symbols mtime)) :
    k.ConsistentAt file := by
  apply consistentAt_of_has hHas
  unfold emptyTime
  split
  · next hNone => exact Or.inl hNone
  · exact Or.inr rfl

end Snapshot

namespace Index

/- No entry is new when a symbol is dropped. -/
theorem entry_of_drops
    {c : Context}
    {i : Index}
    {symbol name : String}
    {entry other : Entry}
    (hDrops : Drops c i symbol entry)
    (hName :
      (Call.after c i (.lookup symbol)).known.symbols.get? name =
        some other) :
    i.known.symbols.get? name = some other := by
  change (Work.stateAfter
    (lookup c symbol i)).known.symbols.get? name = _ at hName
  rw [(lookup_of_drops hDrops).1, Keyed.get?_erase] at hName
  split at hName
  · cases hName
  · exact hName

/- Dropping a symbol keeps its file consistent. -/
theorem consistentAt_of_drops
    {c : Context}
    {i : Index}
    {symbol : String}
    {entry : Entry}
    (hConsistent : i.known.ConsistentAt entry.file)
    (hDrops : Drops c i symbol entry) :
    (Call.after c i (.lookup symbol)).known.ConsistentAt
      entry.file := by
  refine ⟨?_, ?_⟩
  · intro name other first second hName hOther
    exact hConsistent.oneTime name other first second
      (entry_of_drops hDrops hName)
      (entry_of_drops hDrops hOther)
  · rintro time name hTime ⟨first, hName⟩
    change (Work.stateAfter
      (lookup c symbol i)).known.emptyFiles.get? _ = _ at hTime
    rw [(lookup_of_drops hDrops).2] at hTime
    exact hConsistent.apart time name hTime
      ⟨first, entry_of_drops hDrops hName⟩

/- Every call keeps the index consistent, whatever its outcome. -/
theorem isConsistent_after
    {c : Context}
    {i : Index}
    (hConsistent : i.known.IsConsistent)
    (call : Call) :
    (call.after c i).known.IsConsistent := by
  rw [Snapshot.isConsistent_iff] at hConsistent ⊢
  intro file
  rcases call_cases c i call file with
    hSame | hRenewed | hFound | hLeaves
  · exact (hConsistent file).of_sameFile hSame
  · rcases hRenewed with ⟨mtime, hNone⟩ |
      ⟨mtime, alone, result, -, -, hHas⟩
    · exact Snapshot.consistentAt_of_has hNone (Or.inl rfl)
    · exact Snapshot.consistentAt_of_whole hHas
  · rcases hFound with hNone | ⟨source, -, rfl, result, -, hHas⟩
    · exact Snapshot.consistentAt_of_has hNone (Or.inl rfl)
    · exact Snapshot.consistentAt_of_whole hHas
  · rcases hLeaves.views with ⟨mtime, hNone⟩ |
      ⟨source, -, rfl, _, _, _, _, -, -, hHas⟩ |
      ⟨_, _, _, _, _, _, -, -, -, hHas⟩ |
      ⟨symbol, entry, rfl, hDrops, rfl⟩
    · exact Snapshot.consistentAt_of_has hNone (Or.inl rfl)
    · exact Snapshot.consistentAt_of_has hHas (Or.inr rfl)
    · exact Snapshot.consistentAt_of_has hHas (Or.inr rfl)
    · exact consistentAt_of_drops (hConsistent entry.file) hDrops

end Index

end SymbolAtlas
