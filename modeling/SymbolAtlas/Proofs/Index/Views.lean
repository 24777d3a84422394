import SymbolAtlas.Index.Update
import SymbolAtlas.Proofs.Index.Memory
import SymbolAtlas.Proofs.Index.Steps

/-
  What a snapshot knows about one file.

  The maps of a snapshot are seen file by file: the symbols that
  are in a file, the time they carry, and the time of the file
  if it is among the empty ones. Steps change the view of the
  file that they work on and leave the others alone.

  Key definitions:
    * `Snapshot.Has`, the whole view of a file
    * `Snapshot.SameFile`, two equal views
    * `Index.forgotten`
  Key theorems:
    * `Snapshot.Has.records_iff`, `Snapshot.Has.maps_iff`
    * `Index.has_entered`, `Index.sameFile_entered`
    * `Index.scanAgain_cases`
-/

------------------------------------------------------------
-- Views of Files
------------------------------------------------------------

namespace SymbolAtlas

namespace Snapshot

/-
  Exactly these symbols are in the file, all with one time. The
  last argument is the time of the file among the empty ones.
-/
structure Has
    (k : Snapshot)
    (file : String)
    (mtime : Int)
    (symbols : List String)
    (empty : Option Int) : Prop where
  entries :
    ∀ symbol time,
      k.symbols.get? symbol = some ⟨file, time⟩ ↔
        symbol ∈ symbols ∧ time = mtime
  emptyAt : k.emptyFiles.get? file = empty

/- Both snapshots know the same about the file. -/
structure SameFile (k l : Snapshot) (file : String) : Prop where
  entries :
    ∀ symbol time,
      k.symbols.get? symbol = some ⟨file, time⟩ ↔
        l.symbols.get? symbol = some ⟨file, time⟩
  emptyAt : k.emptyFiles.get? file = l.emptyFiles.get? file

/- The time that a file with these symbols has as an empty one. -/
def emptyTime (symbols : List String) (mtime : Int) : Option Int :=
  if symbols = [] then some mtime else none

variable {k l m : Snapshot} {file : String}

theorem SameFile.refl
    (k : Snapshot)
    (file : String) :
    k.SameFile k file :=
  ⟨fun _ _ => Iff.rfl, rfl⟩

theorem SameFile.trans
    (hFirst : k.SameFile l file)
    (hSecond : l.SameFile m file) :
    k.SameFile m file :=
  ⟨fun symbol time =>
    (hFirst.entries symbol time).trans
      (hSecond.entries symbol time),
    hFirst.emptyAt.trans hSecond.emptyAt⟩

theorem SameFile.maps_iff
    (hSame : k.SameFile l file)
    (symbol : String) :
    k.Maps file symbol ↔ l.Maps file symbol :=
  exists_congr fun time => hSame.entries symbol time

theorem SameFile.records_iff
    (hSame : k.SameFile l file)
    (mtime : Int) :
    k.Records file mtime ↔ l.Records file mtime := by
  unfold Records
  rw [hSame.emptyAt]
  exact or_congr_right
    (exists_congr fun symbol => hSame.entries symbol mtime)

variable {mtime : Int} {symbols : List String} {empty : Option Int}

theorem Has.of_sameFile
    (hHas : k.Has file mtime symbols empty)
    (hSame : k.SameFile l file) :
    l.Has file mtime symbols empty :=
  ⟨fun symbol time =>
    (hSame.entries symbol time).symm.trans
      (hHas.entries symbol time),
    hSame.emptyAt.symm.trans hHas.emptyAt⟩

theorem Has.maps_iff
    (hHas : k.Has file mtime symbols empty)
    (symbol : String) :
    k.Maps file symbol ↔ symbol ∈ symbols := by
  simp [Maps, hHas.entries]

theorem Has.records_iff
    (hHas : k.Has file mtime symbols empty)
    (time : Int) :
    k.Records file time ↔
      empty = some time ∨ symbols ≠ [] ∧ time = mtime := by
  unfold Records
  rw [hHas.emptyAt]
  simp only [hHas.entries, exists_and_right]
  rw [← List.isEmpty_eq_false_iff_exists_mem,
    List.isEmpty_eq_false_iff]

/- Nothing is recorded of a file without symbols. -/
theorem Has.not_records
    (hHas : k.Has file mtime [] none)
    (time : Int) :
    ¬ k.Records file time := by
  simp [hHas.records_iff]

/- A file with all its symbols is recorded at its time. -/
theorem Has.records_whole_iff
    (hHas :
      k.Has file mtime symbols (emptyTime symbols mtime))
    (time : Int) :
    k.Records file time ↔ time = mtime := by
  rw [hHas.records_iff]
  unfold emptyTime
  grind

end Snapshot

end SymbolAtlas

------------------------------------------------------------
-- Steps and Views
------------------------------------------------------------

namespace SymbolAtlas

namespace Index

variable {i : Index} {file : String} {mtime : Int}

/- A symbol that is entered joins those of its file. -/
theorem has_entered
    {symbols : List String}
    {empty : Option Int}
    {symbol : String}
    (hHas : i.known.Has file mtime symbols empty) :
    (i.entered symbol ⟨file, mtime⟩).known.Has file mtime
      (symbols ++ [symbol]) empty := by
  refine ⟨?_, hHas.emptyAt⟩
  intro other time
  simp only [entered, Keyed.get?_insert, List.mem_append,
    List.mem_singleton]
  by_cases hOther : other = symbol
  · simp [hOther, eq_comm]
  · simp [hOther, hHas.entries]

/- A free symbol that is entered is in no other file. -/
theorem sameFile_entered
    {symbol other : String}
    {entry : Entry}
    (hFree : i.known.symbols.get? symbol = none)
    (hOther : other ≠ entry.file) :
    i.known.SameFile (i.entered symbol entry).known other := by
  refine ⟨?_, rfl⟩
  intro name time
  simp only [entered, Keyed.get?_insert]
  by_cases hName : name = symbol
  · rw [hName, hFree]
    simp only [if_true, Option.some.injEq]
    constructor
    · intro hNone
      cases hNone
    · rintro rfl
      exact absurd rfl hOther
  · simp [hName]

/- The index without a file. -/
def forgotten (i : Index) (file : String) : Index :=
  { i with
    known :=
      { i.known with
        symbols := i.known.symbols.filter fun _ e => e.file != file
        emptyFiles := i.known.emptyFiles.erase file } }

theorem has_forgotten
    (i : Index)
    (file : String)
    (mtime : Int) :
    (i.forgotten file).known.Has file mtime [] none := by
  refine ⟨?_, by simp [forgotten]⟩
  intro symbol time
  simp [forgotten]

theorem sameFile_forgotten
    {other : String}
    (hOther : other ≠ file) :
    i.known.SameFile (i.forgotten file).known other := by
  refine ⟨?_, ?_⟩
  · intro symbol time
    simp [forgotten, hOther]
  · simp [forgotten, hOther]

/- The index with one more file that declares nothing. -/
def notedEmpty (i : Index) (file : String) (mtime : Int) : Index :=
  { i with
    known :=
      { i.known with
        emptyFiles := i.known.emptyFiles.insert file mtime } }

theorem has_notedEmpty
    {symbols : List String}
    {empty : Option Int}
    (hHas : i.known.Has file mtime symbols empty) :
    (i.notedEmpty file mtime).known.Has file mtime symbols
      (some mtime) :=
  ⟨hHas.entries, by simp [notedEmpty]⟩

theorem sameFile_notedEmpty
    {other : String}
    (hOther : other ≠ file) :
    i.known.SameFile (i.notedEmpty file mtime).known other :=
  ⟨fun _ _ => Iff.rfl, by simp [notedEmpty, hOther]⟩

end Index

end SymbolAtlas

------------------------------------------------------------
-- Scanning Again
------------------------------------------------------------

namespace SymbolAtlas

namespace Index

/- What scanning a file again does, step by step. -/
theorem scanAgain_eq
    (c : Context)
    (file : String)
    (i : Index) :
    scanAgain c file i =
      match c.disk.stat file with
      | .error _ => .ok none (i.forgotten file)
      | .ok stat =>
          if stat.isDirectory then .ok none (i.forgotten file)
          else
            match standsAlone c file with
            | .error error => .error error (i.forgotten file)
            | .ok alone =>
                match scan c file alone (i.forgotten file) with
                | .error error final => .error error final
                | .ok found final =>
                    .ok (some (stat.mtime, found))
                      (if found.isEmpty then
                        final.notedEmpty file stat.mtime
                      else final) := by
  unfold scanAgain
  have hForget : forget file i = .ok () (i.forgotten file) := rfl
  rw [Work.bind_of_ok hForget]
  cases c.disk.stat file with
  | error fault => rfl
  | ok stat =>
      dsimp only
      split
      · rfl
      · cases standsAlone c file with
        | error error => rfl
        | ok alone =>
            have hAlone :
                liftError (.ok alone) (i.forgotten file) =
                  .ok alone (i.forgotten file) :=
              rfl
            rw [Work.bind_of_ok hAlone]
            dsimp only
            cases hScan : scan c file alone (i.forgotten file) with
            | error error final =>
                rw [Work.bind_of_error hScan]
            | ok found final =>
                rw [Work.bind_of_ok hScan]
                cases found <;> rfl

/-
  Scanning a file again forgets it. If it is a file and can be
  scanned, its symbols are about to be entered; otherwise it
  stays forgotten. No other file is touched.
-/
theorem scanAgain_cases
    (c : Context)
    (file : String)
    (i : Index) :
    (∃ final,
      (scanAgain c file i = .ok none final ∨
        ∃ error, scanAgain c file i = .error error final) ∧
      (∀ mtime, final.known.Has file mtime [] none) ∧
      ∀ other, other ≠ file →
        i.known.SameFile final.known other) ∨
    ∃ mtime alone result final,
      c.disk.stat file = .ok ⟨false, mtime⟩ ∧
      (Scan.ofPath file alone).run c.disk c.strict = .ok result ∧
      scanAgain c file i =
        .ok (some (mtime, result.symbols)) final ∧
      final.known.Has file mtime []
        (Snapshot.emptyTime result.symbols mtime) ∧
      ∀ other, other ≠ file →
        i.known.SameFile final.known other := by
  rw [scanAgain_eq]
  have hGone := i.has_forgotten file
  have hOthers :
      ∀ other, other ≠ file →
        i.known.SameFile (i.forgotten file).known other :=
    fun other hOther => sameFile_forgotten hOther
  cases hStat : c.disk.stat file with
  | error fault => exact Or.inl ⟨_, Or.inl rfl, hGone, hOthers⟩
  | ok stat =>
      obtain ⟨isDirectory, mtime⟩ := stat
      cases isDirectory with
      | true => exact Or.inl ⟨_, Or.inl rfl, hGone, hOthers⟩
      | false =>
          dsimp only
          rw [if_neg (by simp)]
          cases standsAlone c file with
          | error error =>
              exact Or.inl
                ⟨_, Or.inr ⟨error, rfl⟩, hGone, hOthers⟩
          | ok alone =>
              dsimp only
              rw [scan_eq]
              cases hRun :
                  (Scan.ofPath file alone).run c.disk
                    c.strict with
              | error error =>
                  exact Or.inl
                    ⟨_, Or.inr ⟨error, rfl⟩, hGone, hOthers⟩
              | ok result =>
                  right
                  refine ⟨mtime, alone, result, _, rfl, hRun, rfl,
                    ?_, ?_⟩
                  · simp only [Snapshot.emptyTime,
                      List.isEmpty_iff]
                    split
                    · exact has_notedEmpty (hGone mtime)
                    · exact hGone mtime
                  · intro other hOther
                    split
                    · exact (hOthers other hOther).trans
                        (sameFile_notedEmpty hOther)
                    · exact hOthers other hOther

end Index

end SymbolAtlas
