import SymbolAtlas.Index.Rebuild

/-
  What a rebuild remembers of a snapshot.

  A memory turns the map of symbols around: for each file it
  holds a time and the symbols that were known to be in it. In
  a consistent snapshot a file has one time, so the memory of a
  file says neither more nor less than the snapshot.

  Key definitions:
    * `Snapshot.Maps`, `Snapshot.Records`
    * `Snapshot.IsConsistent`
    * `Keyed.SameMap`
  Key theorems:
    * `Index.Memory.symbols?_eq_some`
    * `Index.Memory.symbols?_of_records`
    * `Index.Memory.symbols?_of_not_records`
-/

------------------------------------------------------------
-- Views of Snapshots
------------------------------------------------------------

namespace SymbolAtlas

/- Both maps give every key the same value. -/
def Keyed.SameMap {α : Type} (m n : Keyed α) : Prop :=
  ∀ key, m.get? key = n.get? key

namespace Snapshot

/- The symbol is known to be in the file. -/
def Maps (k : Snapshot) (file symbol : String) : Prop :=
  ∃ mtime, k.symbols.get? symbol = some ⟨file, mtime⟩

instance
    (k : Snapshot)
    (file symbol : String) :
    Decidable (k.Maps file symbol) :=
  decidable_of_iff
    ((k.symbols.get? symbol).any (·.file = file) = true) (by
    unfold Maps
    cases k.symbols.get? symbol with
    | none => simp
    | some entry =>
        obtain ⟨other, mtime⟩ := entry
        simp)

/- The file is known, with or without symbols, at a time. -/
def Records (k : Snapshot) (file : String) (mtime : Int) : Prop :=
  k.emptyFiles.get? file = some mtime ∨
    ∃ symbol, k.symbols.get? symbol = some ⟨file, mtime⟩

instance
    (k : Snapshot)
    (file : String)
    (mtime : Int) :
    Decidable (k.Records file mtime) :=
  decidable_of_iff
    (k.emptyFiles.get? file = some mtime ∨
      ∃ entry ∈ k.symbols.entries, entry.2 = ⟨file, mtime⟩) (by
    unfold Records
    simp only [Keyed.get?_eq_some_iff, Prod.exists]
    grind)

/-
  All symbols of a file carry one time, and a file that has
  symbols is not among the empty ones.
-/
structure IsConsistent (k : Snapshot) : Prop where
  oneTime :
    ∀ symbol other file mtime otherTime,
      k.symbols.get? symbol = some ⟨file, mtime⟩ →
      k.symbols.get? other = some ⟨file, otherTime⟩ →
      mtime = otherTime
  apart :
    ∀ file mtime symbol,
      k.emptyFiles.get? file = some mtime →
      ¬ k.Maps file symbol

instance
    (k : Snapshot) :
    Decidable k.IsConsistent :=
  decidable_of_iff
    ((∀ first ∈ k.symbols.entries, ∀ second ∈ k.symbols.entries,
        first.2.file = second.2.file →
          first.2.mtime = second.2.mtime) ∧
      ∀ empty ∈ k.emptyFiles.entries,
        ∀ entry ∈ k.symbols.entries,
          entry.2.file ≠ empty.1) (by
    constructor
    · rintro ⟨hTimes, hApart⟩
      constructor
      · intro symbol other file mtime otherTime hGet hOther
        exact hTimes _ (Keyed.get?_eq_some_iff.mp hGet) _
          (Keyed.get?_eq_some_iff.mp hOther) rfl
      · rintro file mtime symbol hEmpty ⟨time, hGet⟩
        exact hApart _ (Keyed.get?_eq_some_iff.mp hEmpty) _
          (Keyed.get?_eq_some_iff.mp hGet) rfl
    · rintro ⟨hTimes, hApart⟩
      constructor
      · rintro ⟨symbol, file, mtime⟩ hFirst
          ⟨other, file', otherTime⟩ hSecond hFile
        dsimp only at hFile
        subst hFile
        exact hTimes _ _ _ _ _ (Keyed.get?_eq_some_iff.mpr hFirst)
          (Keyed.get?_eq_some_iff.mpr hSecond)
      · rintro ⟨file, mtime⟩ hEmpty ⟨symbol, file', time⟩ hEntry
          hFile
        dsimp only at hFile
        subst hFile
        exact hApart _ _ symbol
          (Keyed.get?_eq_some_iff.mpr hEmpty)
          ⟨time, Keyed.get?_eq_some_iff.mpr hEntry⟩)

/- An empty snapshot is consistent. -/
theorem isConsistent_of_empty
    (missing : Keyed Int) :
    IsConsistent ⟨.empty, missing, .empty⟩ where
  oneTime := by simp
  apart := by simp

end Snapshot

end SymbolAtlas

------------------------------------------------------------
-- Turning the Map Around
------------------------------------------------------------

namespace SymbolAtlas

namespace Index

namespace Memory

/- The entries of one file, in order. -/
def entriesOf (file : String) (entries : List (String × Entry)) :
    List (String × Entry) :=
  entries.filter (·.2.file = file)

/- Remembering entries adds the symbols of each file in order. -/
theorem symbols_foldl_add
    (entries : List (String × Entry))
    (m : Memory)
    (file : String) :
    (((entries.foldl (fun m (symbol, entry) => m.add symbol entry)
        m).symbols.get? file).getD []) =
      (m.symbols.get? file).getD [] ++
        (entriesOf file entries).map Prod.fst := by
  induction entries generalizing m with
  | nil => simp [entriesOf]
  | cons first rest ih =>
      obtain ⟨symbol, entry⟩ := first
      rw [List.foldl_cons, ih]
      simp only [add, Keyed.get?_insert]
      by_cases hFile : entry.file = file
      · simp [entriesOf, hFile]
      · have hNe : file ≠ entry.file := Ne.symm hFile
        simp [entriesOf, hFile, hNe]

/- The last entry of a file decides on its time. -/
theorem times_foldl_add
    (entries : List (String × Entry))
    (m : Memory)
    (file : String) :
    (entries.foldl (fun m (symbol, entry) => m.add symbol entry)
        m).times.get? file =
      ((entriesOf file entries).getLast?.map (·.2.mtime)).or
        (m.times.get? file) := by
  induction entries generalizing m with
  | nil => simp [entriesOf]
  | cons first rest ih =>
      obtain ⟨symbol, entry⟩ := first
      rw [List.foldl_cons, ih]
      simp only [add, Keyed.get?_insert]
      by_cases hFile : entry.file = file
      · simp only [entriesOf, hFile, if_true, decide_true,
          List.filter_cons_of_pos, List.getLast?_cons]
        cases (rest.filter (·.2.file = file)).getLast? <;> simp
      · have hNe : file ≠ entry.file := Ne.symm hFile
        simp [entriesOf, hFile, hNe]

theorem mem_entriesOf_iff
    {k : Snapshot}
    {file symbol : String}
    {entry : Entry} :
    (symbol, entry) ∈ entriesOf file k.symbols.entries ↔
      k.symbols.get? symbol = some entry ∧ entry.file = file := by
  simp [entriesOf, Keyed.get?_eq_some_iff]

/- The symbols that are remembered of a file. -/
def symbolsOf (k : Snapshot) (file : String) : List String :=
  (entriesOf file k.symbols.entries).map Prod.fst

theorem mem_symbolsOf_iff
    {k : Snapshot}
    {file symbol : String} :
    symbol ∈ symbolsOf k file ↔ k.Maps file symbol := by
  simp only [symbolsOf, List.mem_map, Prod.exists]
  constructor
  · rintro ⟨_, entry, hMem, rfl⟩
    rcases mem_entriesOf_iff.mp hMem with ⟨hGet, rfl⟩
    exact ⟨entry.mtime, hGet⟩
  · rintro ⟨mtime, hGet⟩
    exact ⟨symbol, _, mem_entriesOf_iff.mpr ⟨hGet, rfl⟩, rfl⟩

theorem nodup_symbolsOf
    (k : Snapshot)
    (file : String) :
    (symbolsOf k file).Nodup :=
  k.symbols.nodup.sublist (List.filter_sublist.map Prod.fst)

theorem symbols_ofSnapshot
    (k : Snapshot)
    (file : String) :
    ((ofSnapshot k).symbols.get? file).getD [] =
      symbolsOf k file := by
  unfold ofSnapshot
  rw [symbols_foldl_add]
  simp [symbolsOf]

/- A memory knows the time that a consistent snapshot records. -/
theorem times_ofSnapshot
    {k : Snapshot}
    (hConsistent : k.IsConsistent)
    (file : String)
    (mtime : Int) :
    (ofSnapshot k).times.get? file = some mtime ↔
      k.Records file mtime := by
  unfold ofSnapshot
  rw [times_foldl_add]
  cases hLast :
      (entriesOf file k.symbols.entries).getLast? with
  | none =>
      -- No symbol is in the file, so only empty files count.
      have hNone : entriesOf file k.symbols.entries = [] :=
        List.getLast?_eq_none_iff.mp hLast
      have hUnmapped :
          ∀ symbol, k.symbols.get? symbol ≠ some ⟨file, mtime⟩ := by
        intro symbol hGet
        have hMem := mem_entriesOf_iff.mpr ⟨hGet, rfl⟩
        rw [hNone] at hMem
        cases hMem
      simp [Snapshot.Records, hUnmapped]
  | some last =>
      obtain ⟨symbol, file', time⟩ := last
      rcases mem_entriesOf_iff.mp
          (List.mem_of_getLast? hLast) with ⟨hGet, hFile⟩
      dsimp only at hFile
      subst hFile
      simp only [Option.map_some, Option.some_or,
        Option.some.injEq]
      constructor
      · rintro rfl
        exact Or.inr ⟨symbol, hGet⟩
      · rintro (hEmpty | ⟨other, hOther⟩)
        · exact absurd ⟨time, hGet⟩
            (hConsistent.apart _ _ symbol hEmpty)
        · exact hConsistent.oneTime _ _ _ _ _ hGet hOther

end Memory

end Index

end SymbolAtlas

------------------------------------------------------------
-- Unchanged Sources
------------------------------------------------------------

namespace SymbolAtlas

namespace Index

namespace Memory

/-
  What is remembered of a source are the symbols mapped to it.
  The time is that of a symbol, or of an empty file.
-/
theorem symbols?_eq_some
    {k : Snapshot}
    {source : Source}
    {symbols : List String}
    (hSymbols : (ofSnapshot k).symbols? source = some symbols) :
    symbols = symbolsOf k source.path ∧
    ((∃ symbol,
        k.symbols.get? symbol =
          some ⟨source.path, source.mtime⟩) ∨
      symbols = [] ∧
        k.emptyFiles.get? source.path = some source.mtime) := by
  unfold symbols? at hSymbols
  split at hSymbols
  · next hTime =>
      rw [symbols_ofSnapshot, Option.some.injEq] at hSymbols
      subst hSymbols
      refine ⟨rfl, ?_⟩
      unfold ofSnapshot at hTime
      rw [times_foldl_add] at hTime
      unfold symbolsOf
      cases hLast :
          (entriesOf source.path k.symbols.entries).getLast? with
      | none =>
          rw [hLast] at hTime
          rw [List.getLast?_eq_none_iff.mp hLast]
          exact Or.inr ⟨rfl, hTime⟩
      | some last =>
          obtain ⟨symbol, file, mtime⟩ := last
          rw [hLast] at hTime
          rcases mem_entriesOf_iff.mp
              (List.mem_of_getLast? hLast) with ⟨hGet, hFile⟩
          simp only [Option.map_some, Option.some_or,
            Option.some.injEq] at hTime
          dsimp only at hFile
          rw [hTime, hFile] at hGet
          exact Or.inl ⟨symbol, hGet⟩
  · cases hSymbols

/- The symbols of a recorded source are those mapped to it. -/
theorem symbols?_of_records
    {k : Snapshot}
    (hConsistent : k.IsConsistent)
    {source : Source}
    (hRecords : k.Records source.path source.mtime) :
    (ofSnapshot k).symbols? source =
      some (symbolsOf k source.path) := by
  unfold symbols?
  rw [if_pos ((times_ofSnapshot hConsistent _ _).mpr hRecords),
    symbols_ofSnapshot]

/- Nothing is remembered of a source that is not recorded. -/
theorem symbols?_of_not_records
    {k : Snapshot}
    (hConsistent : k.IsConsistent)
    {source : Source}
    (hRecords : ¬ k.Records source.path source.mtime) :
    (ofSnapshot k).symbols? source = none := by
  unfold symbols?
  rw [if_neg fun hTimes =>
    hRecords ((times_ofSnapshot hConsistent _ _).mp hTimes)]

end Memory

end Index

end SymbolAtlas
