import SymbolAtlas.Proofs.Index.Moves
import SymbolAtlas.Proofs.Index.Nesting

/-
  What an update that succeeds leaves behind.

  The file itself and those that were updated on the way are
  known as a scan finds them now. All other files are known as
  before, and of the names that were missing, those that are now
  in one of the updated files are missing no more.

  Key definitions:
    * `Index.Job.touched`
    * `Index.AsNow`
    * `Index.Clears`, `Index.Job.Takes`
  Key theorems:
    * `Index.Runs.sameFile`, nothing else is touched
    * `Index.Runs.asNow`, `Index.Runs.asNow_nested`
    * `Index.Runs.clears`
    * `Index.update_renews`
-/

------------------------------------------------------------
-- Nothing Else Is Touched
------------------------------------------------------------

namespace SymbolAtlas

namespace Index

/- The file whose entries the job itself changes, if any. -/
def Job.owner : Job → List String
| .file path => [path]
| .room _ => []
| .claims path _ _ => [path]

/- The files whose entries change, by updates within as well. -/
def Job.touched (nested : List Nested) (job : Job) : List String :=
  job.owner ++ nested.map Nested.file

variable {c : Context} {job : Job} {i : Index}
  {nested : List Nested} {ending : Ending} {file other : String}

/- Scanning a file again leaves every other file alone. -/
theorem sameFile_scanAgain
    {outcome : EStateM.Result Error Index
      (Option (Int × List String))}
    (hScan : scanAgain c file i = outcome)
    (hOther : other ≠ file) :
    i.known.SameFile (Work.stateAfter outcome).known other := by
  rcases scanAgain_cases c file i with
    ⟨final, hSame | ⟨error, hSame⟩, -, hOthers⟩ |
    ⟨_, _, _, final, -, -, hSame, -, hOthers⟩
  · rw [← hScan, hSame]
    exact hOthers other hOther
  · rw [← hScan, hSame]
    exact hOthers other hOther
  · rw [← hScan, hSame]
    exact hOthers other hOther

/-
  Files that a job does not touch are known as before, however
  it ends. The induction is on the run.
-/
theorem Runs.sameFile
    (hRuns : Runs c job i nested ending)
    (hOther : other ∉ job.touched nested) :
    i.known.SameFile (Work.stateAfter ending).known other := by
  induction hRuns with
  | dropped hScan =>
      exact sameFile_scanAgain hScan (List.ne_of_not_mem_cons hOther)
  | refused hScan =>
      exact sameFile_scanAgain hScan (List.ne_of_not_mem_cons hOther)
  | halted hScan _ ih =>
      have hHere :=
        sameFile_scanAgain hScan (List.ne_of_not_mem_cons hOther)
      exact hHere.trans (ih hOther)
  | told hScan _ hTold ih =>
      have hHere :=
        sameFile_scanAgain hScan (List.ne_of_not_mem_cons hOther)
      rw [← hTold, known_debug]
      exact hHere.trans (ih hOther)
  | clear _ => exact Snapshot.SameFile.refl _ _
  | made _ _ _ ih => exact ih hOther
  | done => exact Snapshot.SameFile.refl _ _
  | stopped _ ih => exact ih (List.not_mem_of_not_mem_cons hOther)
  | taken _ _ ih => exact ih (List.not_mem_of_not_mem_cons hOther)
  | entered _ hFree _ ihRoom ihRest =>
      simp only [Job.touched, Job.owner, List.map_append,
        List.mem_append, List.mem_singleton, not_or] at hOther
      rcases hOther with ⟨hOwner, hNested, hMore⟩
      have hRest :=
        ihRest (List.not_mem_cons_of_ne_of_not_mem hOwner hMore)
      exact ((ihRoom hNested).trans
        (sameFile_entered hFree hOwner)).trans hRest

end Index

end SymbolAtlas

------------------------------------------------------------
-- Files As They Are Now
------------------------------------------------------------

namespace SymbolAtlas

namespace Index

/-
  A file is known as a scan finds it now, with the time that it
  has. Nothing is known of what is no file.
-/
structure AsNow (c : Context) (k : Snapshot) (file : String) : Prop
    where
  present :
    ∀ mtime,
      c.disk.stat file = .ok ⟨false, mtime⟩ →
        ∃ alone result,
          standsAlone c file = .ok alone ∧
          (Scan.ofPath file alone).run c.disk c.strict =
            .ok result ∧
          k.Has file mtime result.symbols
            (Snapshot.emptyTime result.symbols mtime)
  absent :
    c.disk.isFile file = false →
      ∀ mtime, k.Has file mtime [] none

variable {c : Context} {i next middle final : Index}
  {k l : Snapshot} {nested : List Nested} {file : String}
  {mtime : Int} {symbols : List String}

theorem AsNow.of_sameFile
    (hNow : AsNow c k file)
    (hSame : k.SameFile l file) :
    AsNow c l file where
  present := by
    intro mtime hStat
    rcases hNow.present mtime hStat with
      ⟨alone, result, hAlone, hRun, hHas⟩
    exact ⟨alone, result, hAlone, hRun, hHas.of_sameFile hSame⟩
  absent := fun hGone mtime =>
    (hNow.absent hGone mtime).of_sameFile hSame

/- Only what is no file is not scanned. -/
theorem isFile_of_scanAgain_none
    (hScan : scanAgain c file i = .ok none next) :
    c.disk.isFile file = false := by
  rw [scanAgain_eq] at hScan
  cases hStat : c.disk.stat file with
  | error fault => simp [Disk.isFile, hStat, Except.toOption]
  | ok stat =>
      rw [hStat] at hScan
      dsimp only at hScan
      split at hScan
      · next hDirectory =>
          simp [Disk.isFile, hStat, Except.toOption, hDirectory]
      · split at hScan
        · cases hScan
        · split at hScan <;> cases hScan

/-
  A file gets all symbols that are claimed for it, unless it is
  updated in between. The induction is on the symbols.
-/
theorem Runs.has_claims
    {before : List String}
    {empty : Option Int}
    (hRuns :
      Runs c (.claims file mtime symbols) i nested (.ok () final))
    (hApart : file ∉ nested.map Nested.file)
    (hHas : i.known.Has file mtime before empty) :
    final.known.Has file mtime (before ++ symbols) empty := by
  induction symbols generalizing i nested before with
  | nil =>
      cases hRuns
      rw [List.append_nil]
      exact hHas
  | cons symbol rest ih =>
      cases hRuns with
      | entered hRoom _ hRest =>
          rw [List.map_append, List.mem_append, not_or] at hApart
          have hSame := hRoom.sameFile hApart.1
          have hAll :=
            ih hRest hApart.2 (has_entered (hHas.of_sameFile hSame))
          rwa [List.append_assoc] at hAll

/- The symbols of a file that is scanned again become its own. -/
theorem Runs.has_scanned
    (hScan :
      scanAgain c file i = .ok (some (mtime, symbols)) next)
    (hClaims :
      Runs c (.claims file mtime symbols) next nested
        (.ok () final))
    (hApart : file ∉ nested.map Nested.file) :
    final.known.Has file mtime symbols
      (Snapshot.emptyTime symbols mtime) := by
  rcases exists_run_of_scanAgain hScan with
    ⟨alone, result, -, -, -, rfl, rfl⟩
  exact hClaims.has_claims hApart (has_rescanned ..)

/- A file that was updated is known as it is now. -/
theorem Runs.asNow
    (hRuns : Runs c (.file file) i nested (.ok () final)) :
    AsNow c final.known file := by
  have hNodup := hRuns.nodup_files
  cases hRuns with
  | dropped hScan =>
      have hGone := isFile_of_scanAgain_none hScan
      constructor
      · intro mtime hStat
        cases hGone.symm.trans (Disk.isFile_of_stat hStat)
      · intro _ mtime
        rw [known_of_scanAgain (.inl hScan)]
        exact has_forgotten i file mtime
  | told hScan hClaims hTold =>
      have hApart := (List.nodup_cons.mp hNodup).1
      have hHas := hClaims.has_scanned hScan hApart
      rcases exists_run_of_scanAgain hScan with
        ⟨alone, result, hStat, hAlone, hRun, rfl, -⟩
      rw [known_of_debug hTold]
      constructor
      · intro mtime hNow
        cases hStat.symm.trans hNow
        exact ⟨alone, result, hAlone, hRun, hHas⟩
      · intro hGone
        cases hGone.symm.trans (Disk.isFile_of_stat hStat)

end Index

end SymbolAtlas

------------------------------------------------------------
-- Files Updated on the Way
------------------------------------------------------------

namespace SymbolAtlas

namespace Index

variable {c : Context} {job : Job} {i final : Index}
  {nested more : List Nested} {ending : Ending}

/-
  If claims touch no file twice, room is made for the first one
  and the others are claimed without touching a file twice; and
  what was touched for the room is left alone afterwards.
-/
theorem nodup_touched_append
    {file symbol : String}
    {mtime : Int}
    {symbols rest : List String}
    (hNodup :
      ((Job.claims file mtime symbols).touched
        (nested ++ more)).Nodup) :
    ((Job.room symbol).touched nested).Nodup ∧
    ((Job.claims file mtime rest).touched more).Nodup ∧
    ∀ n ∈ nested,
      n.file ∉ (Job.claims file mtime rest).touched more := by
  simp only [Job.touched, Job.owner, List.map_append,
    List.singleton_append, List.nodup_cons, List.nodup_append,
    List.mem_append, not_or, List.nil_append] at hNodup ⊢
  rcases hNodup with ⟨⟨hNested, hMore⟩, hFirst, hRest, hApart⟩
  refine ⟨hFirst, ⟨hMore, hRest⟩, ?_⟩
  intro n hN hTouched
  have hFile := List.mem_map_of_mem (f := Nested.file) hN
  rcases List.mem_cons.mp hTouched with hOwner | hAgain
  · exact hNested (hOwner ▸ hFile)
  · exact hApart _ hFile _ hAgain rfl

/-
  A file that was touched before a symbol is entered stays as it
  is when the other symbols are claimed.
-/
theorem Runs.sameFile_rest
    {file symbol other : String}
    {mtime : Int}
    {rest : List String}
    {next : Index}
    (hFree : next.known.symbols.get? symbol = none)
    (hRest :
      Runs c (.claims file mtime rest)
        (next.entered symbol ⟨file, mtime⟩) more ending)
    (hApart :
      other ∉ (Job.claims file mtime rest).touched more) :
    next.known.SameFile (Work.stateAfter ending).known other := by
  have hOwner : other ≠ file := List.ne_of_not_mem_cons hApart
  exact (sameFile_entered hFree hOwner).trans
    (hRest.sameFile hApart)

/-
  Files that were updated on the way are known as they are now
  when the job is done. The induction is on the run: each of
  them is left alone after its own turn.
-/
theorem Runs.asNow_nested
    (hRuns : Runs c job i nested ending)
    (hEnds : ending = .ok () final)
    (hNodup : (job.touched nested).Nodup) :
    ∀ n ∈ nested, AsNow c final.known n.file := by
  induction hRuns generalizing final with
  | dropped _ => exact List.forall_mem_nil _
  | refused _ => cases hEnds
  | halted _ _ _ => cases hEnds
  | told _ _ hTold ih =>
      intro n hN
      rw [known_of_debug (hTold.trans hEnds)]
      exact ih rfl hNodup n hN
  | clear _ => exact List.forall_mem_nil _
  | made _ _ hUpdate ih =>
      subst hEnds
      rw [List.forall_mem_cons]
      exact ⟨hUpdate.asNow, ih rfl hNodup⟩
  | done => exact List.forall_mem_nil _
  | stopped _ _ => cases hEnds
  | taken _ _ _ => cases hEnds
  | entered _ hFree hRest ihRoom ihRest =>
      subst hEnds
      rcases nodup_touched_append hNodup with
        ⟨hFirst, hSecond, hApart⟩
      rw [List.forall_mem_append]
      refine ⟨?_, ihRest rfl hSecond⟩
      intro n hN
      have hThen := hRest.sameFile_rest hFree (hApart n hN)
      exact (ihRoom rfl hFirst n hN).of_sameFile hThen

end Index

end SymbolAtlas

------------------------------------------------------------
-- Names That Were Missing
------------------------------------------------------------

namespace SymbolAtlas

namespace Index

/- Some names are missing no more, the others as before. -/
def Clears
    (before after : Keyed Int)
    (taken : String → Prop) : Prop :=
  ∀ symbol,
    (taken symbol → after.get? symbol = none) ∧
    (¬ taken symbol → after.get? symbol = before.get? symbol)

/- The symbols that a job enters, told from where they are now. -/
def Job.Takes
    (nested : List Nested)
    (k : Snapshot)
    (symbol : String) : Job → Prop
| .file path =>
    k.Maps path symbol ∨ ∃ n ∈ nested, k.Maps n.file symbol
| .room _ => ∃ n ∈ nested, k.Maps n.file symbol
| .claims _ _ symbols =>
    symbol ∈ symbols ∨ ∃ n ∈ nested, k.Maps n.file symbol

variable {before middle after : Keyed Int}
  {taken more both : String → Prop}

theorem clears_refl
    (before : Keyed Int)
    (hNone : ∀ symbol, ¬ taken symbol) :
    Clears before before taken :=
  fun symbol =>
    ⟨fun hTaken => absurd hTaken (hNone symbol), fun _ => rfl⟩

theorem Clears.congr
    (hClears : Clears before after taken)
    (hSame : ∀ symbol, both symbol ↔ taken symbol) :
    Clears before after both := by
  intro symbol
  rw [hSame]
  exact hClears symbol

theorem Clears.trans
    (hFirst : Clears before middle taken)
    (hMore : Clears middle after more) :
    Clears before after fun symbol => taken symbol ∨ more symbol := by
  intro symbol
  rcases hFirst symbol with ⟨hTaken, hLeft⟩
  rcases hMore symbol with ⟨hAlso, hStill⟩
  by_cases hNow : more symbol
  · exact ⟨fun _ => hAlso hNow, fun hNot => absurd (.inr hNow) hNot⟩
  · rw [hStill hNow]
    refine ⟨?_, fun hNot => hLeft fun hThen => hNot (.inl hThen)⟩
    intro hEither
    exact hTaken (hEither.resolve_right hNow)

variable {c : Context} {job : Job} {i final : Index}
  {nested : List Nested} {ending : Ending}

/- What is entered is not missing. -/
theorem clears_entered
    (i : Index)
    (symbol : String)
    (entry : Entry) :
    Clears i.known.missing (i.entered symbol entry).known.missing
      (· = symbol) := by
  intro other
  simp only [entered, Keyed.get?_erase]
  exact ⟨fun hSame => if_pos hSame, fun hNot => if_neg hNot⟩

/- Scanning a file again leaves alone what is missing. -/
theorem missing_of_scanAgain
    {file : String}
    {outcome : EStateM.Result Error Index
      (Option (Int × List String))}
    (hScan : scanAgain c file i = outcome) :
    (Work.stateAfter outcome).known.missing = i.known.missing := by
  rcases scanAgain_outcomes c file i with
    ⟨next, hSame | ⟨error, hSame⟩, hKnown⟩ |
    ⟨mtime, alone, result, -, -, -, hSame⟩
  · rw [← hScan, hSame, Work.stateAfter_ok, hKnown]
    rfl
  · rw [← hScan, hSame, Work.stateAfter_error, hKnown]
    rfl
  · rw [← hScan, hSame, Work.stateAfter_ok]
    unfold rescanned
    dsimp only
    split <;> rfl

/-
  A job that succeeds clears the names that it takes from the
  missing ones, and no others. The induction is on the run.
-/
theorem Runs.clears
    (hRuns : Runs c job i nested ending)
    (hEnds : ending = .ok () final)
    (hNodup : (job.touched nested).Nodup) :
    Clears i.known.missing final.known.missing
      (job.Takes nested final.known) := by
  induction hRuns generalizing final with
  | @dropped file i next hScan =>
      cases hEnds
      have hMissing := missing_of_scanAgain hScan
      rw [Work.stateAfter_ok] at hMissing
      rw [hMissing, known_of_scanAgain (.inl hScan)]
      refine clears_refl _ ?_
      intro symbol hTakes
      simp [Job.Takes, (has_forgotten i file 0).maps_iff] at hTakes
  | refused _ => cases hEnds
  | halted _ _ _ => cases hEnds
  | told hScan hClaims hTold ih =>
      have hApart := (List.nodup_cons.mp hNodup).1
      have hHas := hClaims.has_scanned hScan hApart
      rw [known_of_debug (hTold.trans hEnds),
        ← missing_of_scanAgain hScan]
      refine (ih rfl hNodup).congr ?_
      intro symbol
      exact or_congr_left (hHas.maps_iff symbol)
  | clear _ =>
      cases hEnds
      exact clears_refl _ (by simp [Job.Takes])
  | made _ _ _ ih =>
      refine (ih hEnds hNodup).congr ?_
      intro symbol
      exact List.exists_mem_cons_iff ..
  | done =>
      cases hEnds
      exact clears_refl _ (by simp [Job.Takes])
  | stopped _ _ => cases hEnds
  | taken _ _ _ => cases hEnds
  | @entered file symbol _ _ next rest nested more _ _ hFree hRest
      ihRoom ihRest =>
      subst hEnds
      rcases nodup_touched_append hNodup with
        ⟨hFirst, hSecond, hApart⟩
      refine (((ihRoom rfl hFirst).trans
        (clears_entered next symbol _)).trans
          (ihRest rfl hSecond)).congr ?_
      intro other
      -- What was taken for the room is still where it was.
      have hRoom :
          (∃ n ∈ nested, next.known.Maps n.file other) ↔
            ∃ n ∈ nested, final.known.Maps n.file other := by
        refine exists_congr fun n => and_congr_right fun hN => ?_
        exact (hRest.sameFile_rest hFree (hApart n hN)).maps_iff
          other
      simp only [Job.Takes, hRoom, List.mem_cons, List.mem_append,
        or_and_right, exists_or]
      exact or_or_or_comm.trans (or_congr_left or_comm)

/-
  After an update that succeeds, the file is known as it is now.
  Every other file is known as before, unless it was updated on
  the way: then some entry of it had drifted, and it is known as
  it is now. Of the missing names, those that are in a file that
  was updated are missing no more; the others stay.
-/
theorem update_renews
    {file : String}
    (hUpdate : update c file i = .ok () final) :
    ∃ nested,
      Runs c (.file file) i nested (.ok () final) ∧
      AsNow c final.known file ∧
      (∀ other, other ≠ file →
        other ∉ nested.map Nested.file ∧
          i.known.SameFile final.known other ∨
        other ∈ nested.map Nested.file ∧
          IsStale c.disk i.known other ∧
          AsNow c final.known other) ∧
      Clears i.known.missing final.known.missing fun symbol =>
        ∃ updated ∈ file :: nested.map Nested.file,
          final.known.Maps updated symbol := by
  rcases exists_runs_update c file i with ⟨nested, hRuns⟩
  rw [hUpdate] at hRuns
  have hNodup := hRuns.nodup_files
  have hFresh := hRuns.fresh trivial
  have hStart := keepsDrift_forgotten c.disk i file
  refine ⟨nested, hRuns, hRuns.asNow, ?_, ?_⟩
  · intro other hOther
    by_cases hNested : other ∈ nested.map Nested.file
    · right
      rcases List.mem_map.mp hNested with ⟨n, hN, rfl⟩
      exact ⟨hNested, hStart.isStale (hFresh.stale n hN),
        hRuns.asNow_nested rfl hNodup n hN⟩
    · left
      have hApart :=
        List.not_mem_cons_of_ne_of_not_mem hOther hNested
      exact ⟨hNested, hRuns.sameFile hApart⟩
  · refine (hRuns.clears rfl hNodup).congr ?_
    intro symbol
    simp only [List.exists_mem_cons_iff, List.mem_map,
      exists_exists_and_eq_and, Job.Takes]

/- What was known before, with two names that were missed. -/
def missedBefore : Index where
  known :=
    { knownBefore.known with
      missing := .ofList [("Y", 2), ("Z", 1)] }

theorem missed_update :
    (match update afterTheMove "/w/a.php" missedBefore with
      | .ok _ final => final.known.symbols.entries
      | .error _ _ => []) =
        [("X", ⟨"/w/b.php", 7⟩), ("Y", ⟨"/w/a.php", 7⟩)] := by
  decide +kernel

/- Files that exchanged their symbols are renewed together. -/
theorem exchanged_files_renewed :
    ∃ final,
      update afterTheMove "/w/a.php" missedBefore =
        .ok () final ∧
      AsNow afterTheMove final.known "/w/a.php" ∧
      IsStale afterTheMove.disk missedBefore.known "/w/b.php" ∧
      AsNow afterTheMove final.known "/w/b.php" ∧
      final.known.missing.get? "Y" = none ∧
      final.known.missing.get? "Z" = some 1 := by
  have hEntries := missed_update
  cases hUpdate : update afterTheMove "/w/a.php" missedBefore with
  | error error final =>
      rw [hUpdate] at hEntries
      cases hEntries
  | ok value final =>
      rw [hUpdate] at hEntries
      dsimp only at hEntries
      have hKnown (symbol : String) (entry : Entry) :
          final.known.symbols.get? symbol = some entry ↔
            symbol = "X" ∧ entry = ⟨"/w/b.php", 7⟩ ∨
              symbol = "Y" ∧ entry = ⟨"/w/a.php", 7⟩ := by
        rw [Keyed.get?_eq_some_iff, hEntries]
        simp
      rcases update_renews hUpdate with
        ⟨nested, -, hNow, hOthers, hClears⟩
      refine ⟨final, rfl, hNow, ?_⟩
      rcases hOthers "/w/b.php" (by decide) with
        ⟨-, hSame⟩ | ⟨-, hStale, hNowToo⟩
      · have hLost := (hSame.entries "Y" 5).mp (by decide)
        simp [hKnown] at hLost
      · refine ⟨hStale, hNowToo, (hClears "Y").1 ?_, ?_⟩
        · refine ⟨_, List.mem_cons_self, 7, ?_⟩
          exact (hKnown ..).mpr (.inr ⟨rfl, rfl⟩)
        · rw [(hClears "Z").2]
          · decide
          · simp [Snapshot.Maps, hKnown]

end Index

end SymbolAtlas
