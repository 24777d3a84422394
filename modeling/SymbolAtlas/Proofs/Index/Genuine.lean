import Mathlib.Logic.Equiv.Basic
import SymbolAtlas.Proofs.Index.Effects
import SymbolAtlas.Proofs.Index.Soundness
import SymbolAtlas.Proofs.Search.Failures

/-
  Conflicts that an update finds.

  An update that ends in a conflict has met two files that both
  declare the symbol now. The entry in the way is either up to
  date or goes when its file is updated, so what still stands
  there is true. It is never an entry of the file itself, since
  that one was forgotten and a scan reports no symbol twice. So
  files that only exchanged their symbols are never in conflict.

  Key definitions:
    * `Index.IsConflict`, `Index.Concerns`, `Index.Hinders`
    * `Index.IsTrue`, `Index.Awaits`
  Key theorems:
    * `Index.Runs.honest`
    * `Index.update_reports_real_conflicts`
-/

------------------------------------------------------------
-- What Ends an Update
------------------------------------------------------------

namespace SymbolAtlas

namespace Index

/- Two files declare the symbol now. -/
structure IsConflict
    (c : Context)
    (symbol first second : String) : Prop where
  apart : first ≠ second
  isFile : c.disk.isFile first = true
  isFileToo : c.disk.isFile second = true
  declares : Declares c first symbol
  declaresToo : Declares c second symbol

/- The file is the one to update, or it has a symbol. -/
def Concerns (k : Snapshot) (file other : String) : Prop :=
  other = file ∨ ∃ symbol, k.Maps other symbol

/-
  The error is no conflict. One of the files cannot be asked for
  or scanned, or nothing can be told about it.
-/
def Hinders
    (c : Context)
    (P : String → Prop)
    (error : Error) : Prop :=
  ∃ file, P file ∧
    (standsAlone c file = .error error ∨
      (∃ alone,
        (Scan.ofPath file alone).run c.disk c.strict =
          .error error) ∨
      c.settings.isDebug = true ∧
        ∃ count,
          (Notice.updated file count).check = .error error)

variable {c : Context} {P : String → Prop} {file : String}
  {i next : Index} {error : Error}

theorem Hinders.family_ne
    (hHinders : Hinders c P error) :
    error.family ≠ .ambiguity := by
  rcases hHinders with
    ⟨file, -, hAlone | ⟨alone, hRun⟩ | ⟨-, count, hCheck⟩⟩
  · have hPath (path : String) :
        Peaceful (c.settings.resolvePath c.disk path) :=
      (c.settings.failsWith_resolvePath c.disk path).mono
        fun other hFamily => by
          rw [hFamily]
          decide
    exact ((failsWith_mapM hPath _).map _) error hAlone
  · exact Scan.peaceful_run _ _ _ _ hRun
  · exact Notice.peaceful_check _ _ hCheck

/- What ends the scan of a file that is updated. -/
theorem hinders_of_scanAgain
    (hFile : P file)
    (hScan : scanAgain c file i = .error error next) :
    Hinders c P error := by
  rw [scanAgain_eq] at hScan
  split at hScan
  · cases hScan
  · split at hScan
    · cases hScan
    · split at hScan
      · next hAlone =>
          cases hScan
          exact ⟨file, hFile, .inl hAlone⟩
      · next alone _ =>
          rw [scan_eq] at hScan
          cases hRun :
              (Scan.ofPath file alone).run c.disk c.strict with
          | ok result =>
              rw [hRun] at hScan
              cases hScan
          | error other =>
              rw [hRun] at hScan
              cases hScan
              exact ⟨file, hFile, .inr (.inl ⟨alone, hRun⟩)⟩

/- What ends an update when its file is done. -/
theorem hinders_of_debug
    {count : Nat}
    (hFile : P file)
    (hTold :
      debug c (.updated file count) i = .error error next) :
    Hinders c P error := by
  unfold debug at hTold
  split at hTold
  · next hDebug =>
      cases hCheck : (Notice.updated file count).check with
      | ok shown =>
          rw [hCheck] at hTold
          cases hTold
      | error other =>
          rw [hCheck] at hTold
          cases hTold
          exact ⟨file, hFile, .inr (.inr ⟨hDebug, count, hCheck⟩)⟩
  · cases hTold

end Index

end SymbolAtlas

------------------------------------------------------------
-- True Entries
------------------------------------------------------------

namespace SymbolAtlas

namespace Index

/- All entries are faithful, and of files of some kind. -/
structure IsTrue
    (c : Context)
    (P : String → Prop)
    (k : Snapshot) : Prop where
  files :
    ∀ symbol entry,
      k.symbols.get? symbol = some entry → P entry.file
  faithful : Faithful c k

/-
  The symbols are those that the file declares now and that are
  still to be entered. None of its entries is out of date.
-/
structure Awaits
    (c : Context)
    (P : String → Prop)
    (k : Snapshot)
    (file : String)
    (mtime : Int)
    (symbols : List String) : Prop where
  holds : P file
  stat : c.disk.stat file = .ok ⟨false, mtime⟩
  nodup : symbols.Nodup
  declares : ∀ symbol ∈ symbols, Declares c file symbol
  fresh : ¬ IsStale c.disk k file
  free : ∀ symbol ∈ symbols, ¬ k.Maps file symbol

/- What a job needs of the index where it begins. -/
def Job.IsReady
    (c : Context)
    (P : String → Prop)
    (k : Snapshot) : Job → Prop
| .file path => P path
| .room _ => True
| .claims path mtime symbols => Awaits c P k path mtime symbols

variable {c : Context} {P : String → Prop} {k l : Snapshot}
  {file symbol : String} {mtime : Int} {symbols : List String}
  {i next : Index} {nested : List Nested}

/- Entries stay true when some of them go. -/
theorem IsTrue.of_fewer
    (hTrue : IsTrue c P k)
    (hFewer :
      ∀ symbol entry,
        l.symbols.get? symbol = some entry →
          k.symbols.get? symbol = some entry) :
    IsTrue c P l where
  files symbol entry hEntry :=
    hTrue.files symbol entry (hFewer symbol entry hEntry)
  faithful symbol entry hEntry :=
    hTrue.faithful symbol entry (hFewer symbol entry hEntry)

theorem IsTrue.entered
    (hTrue : IsTrue c P i.known)
    (hAwaits : Awaits c P k file mtime symbols)
    (hSymbol : symbol ∈ symbols) :
    IsTrue c P (i.entered symbol ⟨file, mtime⟩).known := by
  constructor
  · intro other entry hEntry
    simp only [Index.entered, Keyed.get?_insert] at hEntry
    split at hEntry
    · cases hEntry
      exact hAwaits.holds
    · exact hTrue.files other entry hEntry
  · intro other entry hEntry hTime
    simp only [Index.entered, Keyed.get?_insert] at hEntry
    split at hEntry
    · next hSame =>
        cases hEntry
        rw [hSame]
        exact ⟨Disk.isFile_of_stat hAwaits.stat,
          hAwaits.declares symbol hSymbol⟩
    · exact hTrue.faithful other entry hEntry hTime

theorem Awaits.isTimely
    (hAwaits : Awaits c P k file mtime symbols) :
    hasDrifted c.disk ⟨file, mtime⟩ = false := by
  simp [hasDrifted, Disk.mtime?, hAwaits.stat, Except.toOption]

/- A file that was scanned again has all its symbols to enter. -/
theorem awaits_of_scanAgain
    (hFile : P file)
    (hScan :
      scanAgain c file i = .ok (some (mtime, symbols)) next) :
    Awaits c P next.known file mtime symbols := by
  rcases exists_run_of_scanAgain hScan with
    ⟨alone, result, hStat, hAlone, hRun, rfl, rfl⟩
  have hNone (symbol : String) (entry : Entry)
      (hEntry :
        (i.rescanned file mtime alone result).known.symbols.get?
          symbol = some entry) :
      entry.file ≠ file :=
    ((symbols_rescanned ..).mp hEntry).2
  refine ⟨hFile, hStat, Scan.nodup_run hRun, ?_, ?_, ?_⟩
  · intro symbol hSymbol
    apply declares_of_run hRun hSymbol
    rintro rfl
    exact isAlone_of_standsAlone hAlone
  · rintro ⟨symbol, entry, hEntry, hSame, -⟩
    exact hNone symbol entry hEntry hSame
  · rintro symbol - ⟨time, hEntry⟩
    exact hNone symbol _ hEntry rfl

/- A scan leaves no entry that is not true. -/
theorem IsTrue.of_scanAgain
    {found : Option (Int × List String)}
    (hTrue : IsTrue c P i.known)
    (hScan : scanAgain c file i = .ok found next) :
    IsTrue c P next.known := by
  refine hTrue.of_fewer fun symbol entry hEntry => ?_
  rcases found with _ | ⟨mtime, symbols⟩
  · rw [known_of_scanAgain (.inl hScan)] at hEntry
    exact ((symbols_forgotten ..).mp hEntry).1
  · rcases exists_run_of_scanAgain hScan with
      ⟨alone, result, -, -, -, -, rfl⟩
    exact ((symbols_rescanned ..).mp hEntry).1

/- So does one that fails. -/
theorem IsTrue.of_refused
    (hTrue : IsTrue c P i.known)
    (hScan : scanAgain c file i = .error error next) :
    IsTrue c P next.known := by
  refine hTrue.of_fewer fun symbol entry hEntry => ?_
  rw [known_of_scanAgain (.inr ⟨error, hScan⟩)] at hEntry
  exact ((symbols_forgotten ..).mp hEntry).1

end Index

end SymbolAtlas

------------------------------------------------------------
-- Making Room
------------------------------------------------------------

namespace SymbolAtlas

namespace Index

variable {c : Context} {P : String → Prop} {k : Snapshot}
  {file symbol : String} {mtime : Int} {rest : List String}
  {i next : Index} {nested : List Nested}

/-
  Once room was made for a symbol, an entry that still stands
  there has the time of its file. One that had drifted went when
  its file was forgotten.
-/
theorem Runs.not_drifted_of_room
    {standing : Entry}
    (hRoom : Runs c (.room symbol) i nested (.ok () next))
    (hStanding :
      next.known.symbols.get? symbol = some standing) :
    hasDrifted c.disk standing = false := by
  rw [← Bool.not_eq_true]
  intro hDrifted
  cases hRoom with
  | clear hClear =>
      rw [hClear standing hStanding] at hDrifted
      cases hDrifted
  | made hSymbol hOld hUpdate =>
      have hBefore :=
        hUpdate.keepsDrift trivial symbol standing hStanding
          hDrifted
      rcases (symbols_forgotten ..).mp hBefore with
        ⟨hSame, hOther⟩
      cases hSymbol.symm.trans hSame
      exact hOther rfl

/- Making room for a symbol leaves a fresh file alone. -/
theorem Awaits.sameFile
    {symbols : List String}
    (hAwaits : Awaits c P i.known file mtime symbols)
    (hRoom : Runs c (.room symbol) i nested (.ok () next)) :
    i.known.SameFile next.known file := by
  refine hRoom.sameFile fun hTouched => ?_
  rcases List.mem_map.mp hTouched with ⟨n, hN, rfl⟩
  exact hAwaits.fresh ((hRoom.fresh trivial).stale n hN)

/- The file waits for the other symbols when one is entered. -/
theorem Awaits.entered
    (hAwaits : Awaits c P i.known file mtime (symbol :: rest))
    (hRoom : Runs c (.room symbol) i nested (.ok () next)) :
    Awaits c P (next.entered symbol ⟨file, mtime⟩).known file
      mtime rest := by
  have hSame := hAwaits.sameFile hRoom
  rcases List.nodup_cons.mp hAwaits.nodup with ⟨hNew, hNodup⟩
  refine ⟨hAwaits.holds, hAwaits.stat, hNodup, ?_, ?_, ?_⟩
  · intro other hOther
    exact hAwaits.declares other (List.mem_cons_of_mem _ hOther)
  · intro hStale
    have hKeeps :=
      (hRoom.keepsDrift trivial).trans
        (keepsDrift_entered hAwaits.isTimely next symbol)
    exact hAwaits.fresh (hKeeps.isStale hStale)
  · rintro other hOther ⟨time, hEntry⟩
    simp only [Index.entered, Keyed.get?_insert] at hEntry
    split at hEntry
    · next hEqual =>
        rw [hEqual] at hOther
        exact hNew hOther
    · exact hAwaits.free other (List.mem_cons_of_mem _ hOther)
        ((hSame.maps_iff other).mpr ⟨time, hEntry⟩)

/- What stands in the way of a file then is a conflict. -/
theorem Awaits.isConflict
    {standing : Entry}
    (hAwaits : Awaits c P i.known file mtime (symbol :: rest))
    (hRoom : Runs c (.room symbol) i nested (.ok () next))
    (hFaithful : Faithful c next.known)
    (hStanding :
      next.known.symbols.get? symbol = some standing) :
    IsConflict c symbol standing.file file := by
  have hTime :
      c.disk.mtime? standing.file = some standing.mtime := by
    simpa [hasDrifted] using hRoom.not_drifted_of_room hStanding
  rcases hFaithful symbol standing hStanding hTime with
    ⟨hFile, hDeclares⟩
  refine ⟨?_, hFile, Disk.isFile_of_stat hAwaits.stat, hDeclares,
    hAwaits.declares symbol List.mem_cons_self⟩
  rintro rfl
  have hOwn : next.known.Maps standing.file symbol :=
    ⟨standing.mtime, hStanding⟩
  exact hAwaits.free symbol List.mem_cons_self
    (((hAwaits.sameFile hRoom).maps_iff symbol).mpr hOwn)

end Index

end SymbolAtlas

------------------------------------------------------------
-- Whole Updates
------------------------------------------------------------

namespace SymbolAtlas

namespace Index

/-
  A job leaves true entries behind. If it fails then for a
  conflict of files that it concerns, or for one of those files.
-/
structure Honest
    (c : Context)
    (P : String → Prop)
    (ending : Ending) : Prop where
  isTrue : IsTrue c P (Work.stateAfter ending).known
  fails :
    ∀ error final,
      ending = .error error final →
        (∃ symbol first second,
          error = .ambiguous symbol first second ∧
          P first ∧ P second ∧
          IsConflict c symbol first second) ∨
        Hinders c P error

variable {c : Context} {P : String → Prop} {job : Job}
  {i final : Index} {nested : List Nested} {ending : Ending}
  {error : Error}

theorem honest_ok
    (hTrue : IsTrue c P final.known) :
    Honest c P (.ok () final) :=
  ⟨hTrue, fun _ _ hFails => by cases hFails⟩

theorem honest_error
    (hTrue : IsTrue c P final.known)
    (hFails :
      (∃ symbol first second,
        error = .ambiguous symbol first second ∧
        P first ∧ P second ∧
        IsConflict c symbol first second) ∨
      Hinders c P error) :
    Honest c P (.error error final) := by
  refine ⟨hTrue, ?_⟩
  rintro _ _ ⟨⟩
  exact hFails

/-
  Every job is honest that begins with true entries. The
  induction is on the run.
-/
theorem Runs.honest
    (hRuns : Runs c job i nested ending)
    (hTrue : IsTrue c P i.known)
    (hReady : job.IsReady c P i.known) :
    Honest c P ending := by
  induction hRuns with
  | dropped hScan =>
      exact honest_ok (hTrue.of_scanAgain hScan)
  | refused hScan =>
      exact honest_error (hTrue.of_refused hScan)
        (.inr (hinders_of_scanAgain hReady hScan))
  | halted hScan _ ih =>
      exact ih (hTrue.of_scanAgain hScan)
        (awaits_of_scanAgain hReady hScan)
  | told hScan _ hTold ih =>
      have hClaims :=
        ih (hTrue.of_scanAgain hScan)
          (awaits_of_scanAgain hReady hScan)
      subst hTold
      refine ⟨?_, fun error final hFails => ?_⟩
      · rw [known_debug]
        exact hClaims.isTrue
      · exact .inr (hinders_of_debug hReady hFails)
  | clear _ => exact honest_ok hTrue
  | made hSymbol _ _ ih =>
      exact ih hTrue (hTrue.files _ _ hSymbol)
  | done => exact honest_ok hTrue
  | stopped _ ih => exact ih hTrue trivial
  | taken hRoom hStanding ih =>
      have hNow := (ih hTrue trivial).isTrue
      refine honest_error hNow (.inl ⟨_, _, _, rfl, ?_, ?_, ?_⟩)
      · exact hNow.files _ _ hStanding
      · exact Awaits.holds hReady
      · exact Awaits.isConflict hReady hRoom hNow.faithful
          hStanding
  | entered hRoom _ _ ihRoom ihRest =>
      have hNow := (ihRoom hTrue trivial).isTrue
      exact ihRest (hNow.entered hReady List.mem_cons_self)
        (Awaits.entered hReady hRoom)

/- An update is honest about the files that it concerns. -/
theorem honest_update
    (hFaithful : Faithful c i.known)
    (file : String) :
    Honest c (Concerns i.known file) (update c file i) := by
  rcases exists_runs_update c file i with ⟨nested, hRuns⟩
  refine hRuns.honest ⟨?_, hFaithful⟩ (.inl rfl)
  intro symbol entry hEntry
  exact .inr ⟨symbol, entry.mtime, hEntry⟩

/-
  If an update of an index whose entries are faithful ends in a
  conflict, then two files declare the symbol now. So if every
  file declares symbols that were known of one file, and those
  of different files were known of different ones, then no error
  of the update is a conflict: some file cannot be scanned, or
  it cannot be told that it was updated.
-/
theorem update_reports_real_conflicts
    (hFaithful : Faithful c i.known)
    (file : String) :
    (∀ symbol first second final,
      update c file i =
          .error (.ambiguous symbol first second) final →
        IsConflict c symbol first second) ∧
    ∀ source : Equiv.Perm String,
      (∀ other symbol,
        Concerns i.known file other →
        Declares c other symbol →
          i.known.Maps (source other) symbol) →
      ∀ error final,
        update c file i = .error error final →
          error.family ≠ .ambiguity ∧
          Hinders c (Concerns i.known file) error := by
  have hHonest := honest_update hFaithful file
  refine ⟨?_, ?_⟩
  · intro symbol first second final hUpdate
    rcases hHonest.fails _ _ hUpdate with
      ⟨_, _, _, hError, -, -, hConflict⟩ | hHinders
    · cases hError
      exact hConflict
    · exact absurd rfl hHinders.family_ne
  · intro source hExchanged error final hUpdate
    rcases hHonest.fails _ _ hUpdate with
      ⟨symbol, first, second, -, hFirst, hSecond, hConflict⟩ |
        hHinders
    · exfalso
      rcases hExchanged first symbol hFirst hConflict.declares with
        ⟨mtime, hEntry⟩
      rcases hExchanged second symbol hSecond
          hConflict.declaresToo with
        ⟨time, hEntryToo⟩
      have hSame := hEntry.symm.trans hEntryToo
      rw [Option.some.injEq, Entry.mk.injEq] at hSame
      exact hConflict.apart (source.injective hSame.1)
    · exact ⟨hHinders.family_ne, hHinders⟩

/- Both roots declare now what one of them had declared. -/
def afterTheCopy : Context :=
  twoRoots 7 "<?php class X {}" "<?php class X {}"

theorem copied_update :
    Faithful afterTheCopy knownBefore.known ∧
    (match update afterTheCopy "/w/b.php" knownBefore with
      | .error error _ => some error
      | .ok _ _ => none) =
        some (.ambiguous "X" "/w/a.php" "/w/b.php") := by
  decide +kernel

theorem exchanged_symbols :
    Faithful afterTheMove knownBefore.known ∧
    (∀ file ∈ ["/w/a.php", "/w/b.php"],
      ((Scan.ofPath file (isAlone afterTheMove file)).run
        afterTheMove.disk true).toOption.map (·.symbols) =
          some (if file = "/w/a.php" then ["Y"] else ["X"])) ∧
    knownBefore.known.symbols.entries =
      [("X", ⟨"/w/a.php", 5⟩), ("Y", ⟨"/w/b.php", 5⟩)] := by
  decide +kernel

/- A copy is a conflict, and an exchange is none. -/
theorem copy_conflicts_and_exchange_does_not :
    Faithful afterTheCopy knownBefore.known ∧
    (∃ final,
      update afterTheCopy "/w/b.php" knownBefore =
        .error (.ambiguous "X" "/w/a.php" "/w/b.php") final) ∧
    IsConflict afterTheCopy "X" "/w/a.php" "/w/b.php" ∧
    Faithful afterTheMove knownBefore.known ∧
    ∀ error final,
      update afterTheMove "/w/a.php" knownBefore =
          .error error final →
        error.family ≠ .ambiguity := by
  rcases copied_update with ⟨hFaithful, hError⟩
  rcases exchanged_symbols with ⟨hFaithfulToo, hScans, hKnown⟩
  cases hUpdate : update afterTheCopy "/w/b.php" knownBefore with
  | ok value final =>
      rw [hUpdate] at hError
      cases hError
  | error error final =>
      rw [hUpdate] at hError
      cases hError
      refine ⟨hFaithful, ⟨final, rfl⟩,
        (update_reports_real_conflicts hFaithful
          "/w/b.php").1 _ _ _ _ hUpdate,
        hFaithfulToo, ?_⟩
      intro error final hFails
      refine ((update_reports_real_conflicts hFaithfulToo
        "/w/a.php").2 (Equiv.swap "/w/a.php" "/w/b.php") ?_ error
          final hFails).1
      intro other symbol hConcerned hDeclares
      have hOther : other = "/w/a.php" ∨ other = "/w/b.php" := by
        rcases hConcerned with rfl | ⟨mapped, mtime, hEntry⟩
        · exact .inl rfl
        · rw [Keyed.get?_eq_some_iff, hKnown] at hEntry
          simp only [List.mem_cons, Prod.mk.injEq, Entry.mk.injEq,
            List.not_mem_nil, or_false] at hEntry
          rcases hEntry with ⟨-, rfl, -⟩ | ⟨-, rfl, -⟩
          · exact .inl rfl
          · exact .inr rfl
      rcases hDeclares with ⟨result, hRun, hSymbol⟩
      have hScan := hScans other (by simpa using hOther)
      change (Scan.ofPath other (isAlone afterTheMove other)).run
        afterTheMove.disk true = _ at hRun
      rw [hRun] at hScan
      simp only [Except.toOption, Option.map_some,
        Option.some.injEq] at hScan
      rw [hScan] at hSymbol
      rcases hOther with rfl | rfl
      · refine ⟨5, ?_⟩
        rw [Equiv.swap_apply_left, Keyed.get?_eq_some_iff, hKnown]
        simpa using hSymbol
      · refine ⟨5, ?_⟩
        rw [Equiv.swap_apply_right, Keyed.get?_eq_some_iff, hKnown]
        simpa using hSymbol

end Index

end SymbolAtlas
