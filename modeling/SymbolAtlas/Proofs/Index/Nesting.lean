import SymbolAtlas.Proofs.Index.Reaching

/-
  Updates within updates come to an end.

  An update goes on to a changed file that is in the way, and
  from there to further ones. Followed without any bound, this
  ends after finitely many updates and exactly as the bounded
  recursion says. A file is forgotten before anything else is
  updated, and what is entered is up to date, so no update within
  the outermost one is for a file that had its turn before.

  Key definitions:
    * `Index.Job`, `Index.Nested`
    * `Index.Runs`, updates without a bound
    * `Index.IsStale`, `Index.KeepsDrift`
  Key theorems:
    * `Index.Runs.unique`
    * `Index.Runs.keepsDrift`, `Index.Runs.nodup_files`
    * `Index.exists_runs_updateWithin`
    * `Index.update_ends`
-/

------------------------------------------------------------
-- Updates Without a Bound
------------------------------------------------------------

namespace SymbolAtlas

namespace Index

/-
  What an update has to do: a file is scanned again, room is
  made for a symbol, or the symbols that are left are claimed.
-/
inductive Job where
| file (path : String)
| room (symbol : String)
| claims (path : String) (mtime : Int) (symbols : List String)

/- An update within an update, with the index around it. -/
structure Nested where
  file : String
  before : Index
  after : Index

/- How a job ends: in any case with an index. -/
abbrev Ending := EStateM.Result Error Index Unit

/-
  A job is done from an index on. It goes through updates of
  other files, in the order in which they begin, and ends.
-/
inductive Runs (c : Context) :
    Job → Index → List Nested → Ending → Prop
| dropped {file : String} {i next : Index}
    (hScan : scanAgain c file i = .ok none next) :
    Runs c (.file file) i [] (.ok () next)
| refused {file : String} {i next : Index} {error : Error}
    (hScan : scanAgain c file i = .error error next) :
    Runs c (.file file) i [] (.error error next)
| halted {file : String} {i next final : Index} {mtime : Int}
    {symbols : List String} {nested : List Nested} {error : Error}
    (hScan :
      scanAgain c file i = .ok (some (mtime, symbols)) next)
    (hClaims :
      Runs c (.claims file mtime symbols) next nested
        (.error error final)) :
    Runs c (.file file) i nested (.error error final)
| told {file : String} {i next middle : Index} {mtime : Int}
    {symbols : List String} {nested : List Nested} {ending : Ending}
    (hScan :
      scanAgain c file i = .ok (some (mtime, symbols)) next)
    (hClaims :
      Runs c (.claims file mtime symbols) next nested
        (.ok () middle))
    (hTold :
      debug c (.updated file symbols.length) middle = ending) :
    Runs c (.file file) i nested ending
| clear {symbol : String} {i : Index}
    (hClear :
      ∀ previous,
        i.known.symbols.get? symbol = some previous →
          hasDrifted c.disk previous = false) :
    Runs c (.room symbol) i [] (.ok () i)
| made {symbol : String} {i : Index} {previous : Entry}
    {nested : List Nested} {ending : Ending}
    (hSymbol : i.known.symbols.get? symbol = some previous)
    (hDrifted : hasDrifted c.disk previous = true)
    (hUpdate : Runs c (.file previous.file) i nested ending) :
    Runs c (.room symbol) i
      (⟨previous.file, i, Work.stateAfter ending⟩ :: nested)
      ending
| done {file : String} {mtime : Int} {i : Index} :
    Runs c (.claims file mtime []) i [] (.ok () i)
| stopped {file symbol : String} {mtime : Int} {i final : Index}
    {rest : List String} {nested : List Nested} {error : Error}
    (hRoom :
      Runs c (.room symbol) i nested (.error error final)) :
    Runs c (.claims file mtime (symbol :: rest)) i nested
      (.error error final)
| taken {file symbol : String} {mtime : Int} {i next : Index}
    {rest : List String} {nested : List Nested} {standing : Entry}
    (hRoom : Runs c (.room symbol) i nested (.ok () next))
    (hStanding :
      next.known.symbols.get? symbol = some standing) :
    Runs c (.claims file mtime (symbol :: rest)) i nested
      (.error (.ambiguous symbol standing.file file) next)
| entered {file symbol : String} {mtime : Int} {i next : Index}
    {rest : List String} {nested more : List Nested}
    {ending : Ending}
    (hRoom : Runs c (.room symbol) i nested (.ok () next))
    (hFree : next.known.symbols.get? symbol = none)
    (hRest :
      Runs c (.claims file mtime rest)
        (next.entered symbol ⟨file, mtime⟩) more ending) :
    Runs c (.claims file mtime (symbol :: rest)) i
      (nested ++ more) ending

variable {c : Context} {job : Job} {i : Index}
  {nested : List Nested} {ending : Ending}

/- A job is done in one way only. -/
theorem Runs.unique
    (hRuns : Runs c job i nested ending)
    {others : List Nested}
    {other : Ending}
    (hOther : Runs c job i others other) :
    others = nested ∧ other = ending := by
  induction hRuns generalizing others other with
  | dropped hScan =>
      cases hOther with
      | dropped hSame =>
          rw [hScan] at hSame
          cases hSame
          exact ⟨rfl, rfl⟩
      | refused hSame => cases hScan.symm.trans hSame
      | halted hSame _ => cases hScan.symm.trans hSame
      | told hSame _ _ => cases hScan.symm.trans hSame
  | refused hScan =>
      cases hOther with
      | dropped hSame => cases hScan.symm.trans hSame
      | refused hSame =>
          rw [hScan] at hSame
          cases hSame
          exact ⟨rfl, rfl⟩
      | halted hSame _ => cases hScan.symm.trans hSame
      | told hSame _ _ => cases hScan.symm.trans hSame
  | halted hScan _ ih =>
      cases hOther with
      | dropped hSame => cases hScan.symm.trans hSame
      | refused hSame => cases hScan.symm.trans hSame
      | halted hSame hClaims =>
          cases hScan.symm.trans hSame
          exact ih hClaims
      | told hSame hClaims _ =>
          cases hScan.symm.trans hSame
          cases (ih hClaims).2
  | told hScan _ hTold ih =>
      cases hOther with
      | dropped hSame => cases hScan.symm.trans hSame
      | refused hSame => cases hScan.symm.trans hSame
      | halted hSame hClaims =>
          cases hScan.symm.trans hSame
          cases (ih hClaims).2
      | told hSame hClaims hToo =>
          cases hScan.symm.trans hSame
          rcases ih hClaims with ⟨hNested, hMiddle⟩
          cases hMiddle
          exact ⟨hNested, hToo.symm.trans hTold⟩
  | clear hClear =>
      cases hOther with
      | clear _ => exact ⟨rfl, rfl⟩
      | made hSymbol hDrifted _ =>
          cases (hClear _ hSymbol).symm.trans hDrifted
  | made hSymbol hDrifted _ ih =>
      cases hOther with
      | clear hClear =>
          cases (hClear _ hSymbol).symm.trans hDrifted
      | made hSame _ hUpdate =>
          cases hSymbol.symm.trans hSame
          rcases ih hUpdate with ⟨hNested, hEnding⟩
          subst hNested
          subst hEnding
          exact ⟨rfl, rfl⟩
  | done =>
      cases hOther
      exact ⟨rfl, rfl⟩
  | stopped _ ih =>
      cases hOther with
      | stopped hRoom => exact ih hRoom
      | taken hRoom _ => cases (ih hRoom).2
      | entered hRoom _ _ => cases (ih hRoom).2
  | taken _ hStanding ih =>
      cases hOther with
      | stopped hRoom => cases (ih hRoom).2
      | taken hRoom hSame =>
          rcases ih hRoom with ⟨hNested, hNext⟩
          cases hNext
          cases hStanding.symm.trans hSame
          exact ⟨hNested, rfl⟩
      | entered hRoom hFree _ =>
          cases (ih hRoom).2
          cases hStanding.symm.trans hFree
  | entered _ hFree _ ihRoom ihRest =>
      cases hOther with
      | stopped hRoom => cases (ihRoom hRoom).2
      | taken hRoom hStanding =>
          cases (ihRoom hRoom).2
          cases hStanding.symm.trans hFree
      | entered hRoom _ hRest =>
          rcases ihRoom hRoom with ⟨hNested, hNext⟩
          cases hNext
          rcases ihRest hRest with ⟨hMore, hEnding⟩
          rw [hNested, hMore]
          exact ⟨rfl, hEnding⟩

end Index

end SymbolAtlas

------------------------------------------------------------
-- Stale Files
------------------------------------------------------------

namespace SymbolAtlas

namespace Index

/- Some entry of the file has drifted. -/
def IsStale (d : Disk) (k : Snapshot) (file : String) : Prop :=
  ∃ symbol entry,
    k.symbols.get? symbol = some entry ∧
    entry.file = file ∧
    hasDrifted d entry = true

/- Every drifted entry of the second one is one of the first. -/
def KeepsDrift (d : Disk) (k l : Snapshot) : Prop :=
  ∀ symbol entry,
    l.symbols.get? symbol = some entry →
    hasDrifted d entry = true →
      k.symbols.get? symbol = some entry

/- The index where the work begins: a file is forgotten first. -/
def Job.begun (i : Index) : Job → Index
| .file path => i.forgotten path
| .room _ => i
| .claims _ _ _ => i

/- Symbols are claimed at the time that their file has now. -/
def Job.IsTimely (d : Disk) : Job → Prop
| .file _ => True
| .room _ => True
| .claims path mtime _ => hasDrifted d ⟨path, mtime⟩ = false

variable {c : Context} {d : Disk} {k l m : Snapshot}
  {file : String}

theorem isStale_of_entry
    {symbol : String}
    {entry : Entry}
    (hEntry : k.symbols.get? symbol = some entry)
    (hDrifted : hasDrifted d entry = true) :
    IsStale d k entry.file :=
  ⟨symbol, entry, hEntry, rfl, hDrifted⟩

theorem KeepsDrift.refl
    (d : Disk)
    (k : Snapshot) :
    KeepsDrift d k k :=
  fun _ _ hEntry _ => hEntry

theorem KeepsDrift.trans
    (hFirst : KeepsDrift d k l)
    (hSecond : KeepsDrift d l m) :
    KeepsDrift d k m :=
  fun symbol entry hEntry hDrifted =>
    hFirst symbol entry
      (hSecond symbol entry hEntry hDrifted) hDrifted

/- No file becomes stale. -/
theorem KeepsDrift.isStale
    (hKeeps : KeepsDrift d k l)
    (hStale : IsStale d l file) :
    IsStale d k file := by
  rcases hStale with ⟨symbol, entry, hEntry, hFile, hDrifted⟩
  exact ⟨symbol, entry, hKeeps symbol entry hEntry hDrifted,
    hFile, hDrifted⟩

theorem keepsDrift_forgotten
    (d : Disk)
    (i : Index)
    (file : String) :
    KeepsDrift d i.known (i.forgotten file).known :=
  fun _ _ hEntry _ => ((symbols_forgotten ..).mp hEntry).1

theorem not_isStale_forgotten
    (d : Disk)
    (i : Index)
    (file : String) :
    ¬ IsStale d (i.forgotten file).known file := by
  intro hStale
  rcases hStale with ⟨symbol, entry, hEntry, hFile, -⟩
  exact ((symbols_forgotten ..).mp hEntry).2 hFile

/- What is entered at the time of its file does not drift. -/
theorem keepsDrift_entered
    {entry : Entry}
    (hUndrifted : hasDrifted d entry = false)
    (i : Index)
    (symbol : String) :
    KeepsDrift d i.known (i.entered symbol entry).known := by
  intro other found hFound hDrifted
  simp only [Index.entered, Keyed.get?_insert] at hFound
  split at hFound
  · cases hFound
    cases hUndrifted.symm.trans hDrifted
  · exact hFound

/- A file is scanned at its time and for what it stands for. -/
theorem exists_run_of_scanAgain
    {i next : Index}
    {mtime : Int}
    {symbols : List String}
    (hScan :
      scanAgain c file i = .ok (some (mtime, symbols)) next) :
    ∃ alone result,
      c.disk.stat file = .ok ⟨false, mtime⟩ ∧
      standsAlone c file = .ok alone ∧
      (Scan.ofPath file alone).run c.disk c.strict = .ok result ∧
      symbols = result.symbols ∧
      next = i.rescanned file mtime alone result := by
  rcases scanAgain_outcomes c file i with
    ⟨_, hOther | ⟨_, hOther⟩, -⟩ |
    ⟨time, alone, result, hStat, hAlone, hRun, hOther⟩
  · cases hScan.symm.trans hOther
  · cases hScan.symm.trans hOther
  · cases hScan.symm.trans hOther
    exact ⟨alone, result, hStat, hAlone, hRun, rfl, rfl⟩

/- A file is forgotten and scanned at the time that it has now. -/
theorem isTimely_of_scanAgain
    {i next : Index}
    {mtime : Int}
    {symbols : List String}
    (hScan :
      scanAgain c file i = .ok (some (mtime, symbols)) next) :
    (Job.claims file mtime symbols).IsTimely c.disk ∧
      KeepsDrift c.disk (i.forgotten file).known next.known := by
  rcases exists_run_of_scanAgain hScan with
    ⟨alone, result, hStat, -, -, rfl, rfl⟩
  constructor
  · simp [Job.IsTimely, hasDrifted, Disk.mtime?, hStat,
      Except.toOption]
  · intro symbol entry hEntry _
    exact (symbols_forgotten ..).mpr
      ((symbols_rescanned ..).mp hEntry)

/- Without a scan a file is only forgotten. -/
theorem known_of_scanAgain
    {i next : Index}
    (hScan :
      scanAgain c file i = .ok none next ∨
        ∃ error, scanAgain c file i = .error error next) :
    next.known = (i.forgotten file).known := by
  rcases scanAgain_outcomes c file i with
    ⟨final, hOther, hKnown⟩ | ⟨_, _, _, -, -, -, hOther⟩
  · rcases hScan with hScan | ⟨error, hScan⟩
    · rcases hOther with hOther | ⟨_, hOther⟩
      · cases hScan.symm.trans hOther
        exact hKnown
      · cases hScan.symm.trans hOther
    · rcases hOther with hOther | ⟨_, hOther⟩
      · cases hScan.symm.trans hOther
      · cases hScan.symm.trans hOther
        exact hKnown
  · rcases hScan with hScan | ⟨error, hScan⟩
    · cases hScan.symm.trans hOther
    · cases hScan.symm.trans hOther

end Index

end SymbolAtlas

------------------------------------------------------------
-- What Becomes of Stale Files
------------------------------------------------------------

namespace SymbolAtlas

namespace Index

variable {c : Context} {job : Job} {i : Index}
  {nested : List Nested} {ending : Ending}

/-
  A job leaves no drifted entry behind that was not there. The
  induction is on the run.
-/
theorem Runs.keepsDrift
    (hRuns : Runs c job i nested ending)
    (hTimely : job.IsTimely c.disk) :
    KeepsDrift c.disk (job.begun i).known
      (Work.stateAfter ending).known := by
  induction hRuns with
  | dropped hScan =>
      rw [Work.stateAfter_ok, known_of_scanAgain (.inl hScan)]
      exact KeepsDrift.refl _ _
  | refused hScan =>
      rw [Work.stateAfter_error,
        known_of_scanAgain (.inr ⟨_, hScan⟩)]
      exact KeepsDrift.refl _ _
  | halted hScan _ ih =>
      rcases isTimely_of_scanAgain hScan with ⟨hTime, hKeeps⟩
      exact hKeeps.trans (ih hTime)
  | told hScan _ hTold ih =>
      rcases isTimely_of_scanAgain hScan with ⟨hTime, hKeeps⟩
      rw [← hTold, known_debug]
      exact hKeeps.trans (ih hTime)
  | clear _ => exact KeepsDrift.refl _ _
  | made _ _ _ ih =>
      exact (keepsDrift_forgotten c.disk _ _).trans (ih trivial)
  | done => exact KeepsDrift.refl _ _
  | stopped _ ih => exact ih trivial
  | taken _ _ ih => exact ih trivial
  | entered _ _ _ ihRoom ihRest =>
      exact (ihRoom trivial).trans
        ((keepsDrift_entered hTimely _ _).trans (ihRest hTimely))

/-
  What holds of the updates within a job: each is for another
  file, which was stale when the job and when the update began,
  and is stale no more when the update and when the job ends.
-/
structure Fresh
    (d : Disk)
    (start final : Index)
    (nested : List Nested) : Prop where
  nodup : (nested.map Nested.file).Nodup
  stale : ∀ n ∈ nested, IsStale d start.known n.file
  before : ∀ n ∈ nested, IsStale d n.before.known n.file
  after : ∀ n ∈ nested, ¬ IsStale d n.after.known n.file
  final : ∀ n ∈ nested, ¬ IsStale d final.known n.file

variable {d : Disk} {start middle next final : Index}

theorem fresh_nil
    (d : Disk)
    (start final : Index) :
    Fresh d start final [] := by
  constructor <;> simp

/- The job may have begun earlier and end later. -/
theorem Fresh.mono
    (hFresh : Fresh d middle next nested)
    (hBefore : KeepsDrift d start.known middle.known)
    (hAfter : KeepsDrift d next.known final.known) :
    Fresh d start final nested where
  nodup := hFresh.nodup
  stale := fun n hN => hBefore.isStale (hFresh.stale n hN)
  before := hFresh.before
  after := hFresh.after
  final := fun n hN hStale =>
    hFresh.final n hN (hAfter.isStale hStale)

/- First the updates of one job, then those of the next. -/
theorem Fresh.append
    {more : List Nested}
    (hFirst : Fresh d start middle nested)
    (hMore : Fresh d middle final more)
    (hKeeps : KeepsDrift d start.known middle.known)
    (hKeepsToo : KeepsDrift d middle.known final.known) :
    Fresh d start final (nested ++ more) := by
  have hBefore := hFirst.mono (KeepsDrift.refl d _) hKeepsToo
  have hBehind := hMore.mono hKeeps (KeepsDrift.refl d _)
  refine ⟨?_, ?_, ?_, ?_, ?_⟩
  · rw [List.map_append, List.nodup_append]
    refine ⟨hFirst.nodup, hMore.nodup, ?_⟩
    intro file hFile other hOther hSame
    rcases List.mem_map.mp hFile with ⟨n, hN, rfl⟩
    rcases List.mem_map.mp hOther with ⟨o, hO, rfl⟩
    exact hFirst.final n hN (hSame ▸ hMore.stale o hO)
  · exact List.forall_mem_append.mpr ⟨hBefore.stale, hBehind.stale⟩
  · exact List.forall_mem_append.mpr
      ⟨hBefore.before, hBehind.before⟩
  · exact List.forall_mem_append.mpr ⟨hBefore.after, hBehind.after⟩
  · exact List.forall_mem_append.mpr ⟨hBefore.final, hBehind.final⟩

/- An update of a stale file comes before those within it. -/
theorem Fresh.cons
    {file : String}
    (hStale : IsStale d start.known file)
    (hFresh : Fresh d (start.forgotten file) final nested)
    (hKeeps :
      KeepsDrift d (start.forgotten file).known final.known) :
    Fresh d start final (⟨file, start, final⟩ :: nested) := by
  have hGone : ¬ IsStale d final.known file :=
    fun hStill =>
      not_isStale_forgotten d start file (hKeeps.isStale hStill)
  have hWithin :=
    hFresh.mono (keepsDrift_forgotten d start file)
      (KeepsDrift.refl d _)
  refine ⟨?_, ?_, ?_, ?_, ?_⟩
  · rw [List.map_cons, List.nodup_cons]
    refine ⟨?_, hFresh.nodup⟩
    intro hFile
    rcases List.mem_map.mp hFile with ⟨n, hN, hSame⟩
    have hStill := hFresh.stale n hN
    rw [hSame] at hStill
    exact not_isStale_forgotten d start file hStill
  · exact List.forall_mem_cons.mpr ⟨hStale, hWithin.stale⟩
  · exact List.forall_mem_cons.mpr ⟨hStale, hWithin.before⟩
  · exact List.forall_mem_cons.mpr ⟨hGone, hWithin.after⟩
  · exact List.forall_mem_cons.mpr ⟨hGone, hWithin.final⟩

/-
  Each update within a job is for a file that was stale and is
  not any more. The induction is on the run.
-/
theorem Runs.fresh
    (hRuns : Runs c job i nested ending)
    (hTimely : job.IsTimely c.disk) :
    Fresh c.disk (job.begun i) (Work.stateAfter ending)
      nested := by
  induction hRuns with
  | dropped _ => exact fresh_nil _ _ _
  | refused _ => exact fresh_nil _ _ _
  | halted hScan _ ih =>
      rcases isTimely_of_scanAgain hScan with ⟨hTime, hKeeps⟩
      exact (ih hTime).mono hKeeps (KeepsDrift.refl _ _)
  | told hScan _ hTold ih =>
      rcases isTimely_of_scanAgain hScan with ⟨hTime, hKeeps⟩
      refine (ih hTime).mono hKeeps ?_
      rw [← hTold, known_debug]
      exact KeepsDrift.refl _ _
  | clear _ => exact fresh_nil _ _ _
  | made hSymbol hDrifted hUpdate ih =>
      exact (ih trivial).cons (isStale_of_entry hSymbol hDrifted)
        (hUpdate.keepsDrift trivial)
  | done => exact fresh_nil _ _ _
  | stopped _ ih => exact ih trivial
  | taken _ _ ih => exact ih trivial
  | entered hRoom _ hRest ihRoom ihRest =>
      have hEntered := keepsDrift_entered hTimely
      have hBehind :=
        (ihRest hTimely).mono (hEntered _ _) (KeepsDrift.refl _ _)
      exact (ihRoom trivial).append hBehind
        (hRoom.keepsDrift trivial)
        ((hEntered _ _).trans (hRest.keepsDrift hTimely))

/- The file of a job, if it has one, and those updated within. -/
def Job.files (nested : List Nested) : Job → List String
| .file path => path :: nested.map Nested.file
| .room _ => nested.map Nested.file
| .claims _ _ _ => nested.map Nested.file

/- No file is updated twice, the outermost one included. -/
theorem Runs.nodup_files
    {file : String}
    (hRuns : Runs c (.file file) i nested ending) :
    ((Job.file file).files nested).Nodup := by
  have hFresh := hRuns.fresh trivial
  rw [Job.files, List.nodup_cons]
  refine ⟨?_, hFresh.nodup⟩
  intro hFile
  rcases List.mem_map.mp hFile with ⟨n, hN, hSame⟩
  exact not_isStale_forgotten c.disk i file
    (hSame ▸ hFresh.stale n hN)

end Index

end SymbolAtlas

------------------------------------------------------------
-- Scans of Updates
------------------------------------------------------------

namespace SymbolAtlas

namespace Index

/-
  The second index has scanned more than the first one: some of
  these files, in their order, and each of them once.
-/
def ScansAmong (i final : Index) (files : List String) : Prop :=
  ∃ scans,
    final.scanned = i.scanned ++ scans ∧
    (scans.map Scan.path).Sublist (files.map Path.normal)

variable {c : Context} {job : Job} {i middle final : Index}
  {nested : List Nested} {ending : Ending}

theorem scansAmong_of_eq
    (hSame : final.scanned = i.scanned)
    (files : List String) :
    ScansAmong i final files :=
  ⟨[], by simp [hSame], List.nil_sublist _⟩

theorem ScansAmong.trans
    {files more : List String}
    (hFirst : ScansAmong i middle files)
    (hMore : ScansAmong middle final more) :
    ScansAmong i final (files ++ more) := by
  rcases hFirst with ⟨scans, hScans, hFiles⟩
  rcases hMore with ⟨others, hOthers, hRest⟩
  refine ⟨scans ++ others, ?_, ?_⟩
  · rw [hOthers, hScans, List.append_assoc]
  · rw [List.map_append, List.map_append]
    exact hFiles.append hRest

/- A file that is scanned again is scanned at most once. -/
theorem scansAmong_scanAgain
    (c : Context)
    (file : String)
    (i : Index) :
    ScansAmong i (Work.stateAfter (scanAgain c file i)) [file] := by
  have hOne (alone : Bool) :
      ([Scan.ofPath file alone].map Scan.path).Sublist
        ([file].map Path.normal) :=
    List.Sublist.refl _
  rw [scanAgain_eq]
  cases c.disk.stat file with
  | error fault => exact scansAmong_of_eq rfl _
  | ok stat =>
      dsimp only
      split
      · exact scansAmong_of_eq rfl _
      · cases standsAlone c file with
        | error error => exact scansAmong_of_eq rfl _
        | ok alone =>
            dsimp only
            rw [scan_eq]
            cases (Scan.ofPath file alone).run c.disk c.strict with
            | error error => exact ⟨_, rfl, hOne alone⟩
            | ok result =>
                dsimp only
                split <;> exact ⟨_, rfl, hOne alone⟩

theorem scanned_debug
    (c : Context)
    (notice : Notice)
    (i : Index) :
    (Work.stateAfter (debug c notice i)).scanned = i.scanned := by
  unfold debug
  split
  · cases notice.check <;> rfl
  · rfl

/- A job scans the files that it updates, each at most once. -/
theorem Runs.scansAmong
    (hRuns : Runs c job i nested ending) :
    ScansAmong i (Work.stateAfter ending) (job.files nested) := by
  induction hRuns with
  | @dropped file i _ hScan =>
      have hScans := scansAmong_scanAgain c file i
      rw [hScan] at hScans
      exact hScans
  | @refused file i _ _ hScan =>
      have hScans := scansAmong_scanAgain c file i
      rw [hScan] at hScans
      exact hScans
  | @halted file i _ _ _ _ _ _ hScan _ ih =>
      have hScans := scansAmong_scanAgain c file i
      rw [hScan] at hScans
      exact hScans.trans ih
  | @told file i _ _ _ _ _ _ hScan _ hTold ih =>
      have hScans := scansAmong_scanAgain c file i
      rw [hScan] at hScans
      have hClaims := hScans.trans ih
      unfold ScansAmong at hClaims ⊢
      rw [← hTold, scanned_debug]
      exact hClaims
  | clear _ => exact scansAmong_of_eq rfl _
  | made _ _ _ ih => exact ih
  | done => exact scansAmong_of_eq rfl _
  | stopped _ ih => exact ih
  | taken _ _ ih => exact ih
  | entered _ _ _ ihRoom ihRest =>
      have hScans := ihRoom.trans ihRest
      rw [Job.files, List.map_append]
      exact hScans

end Index

end SymbolAtlas

------------------------------------------------------------
-- The Bound Is Never Met
------------------------------------------------------------

namespace SymbolAtlas

namespace Index

/- What keeps drift does not drift more. -/
theorem KeepsDrift.driftedCount_le
    {d : Disk}
    {k l : Snapshot}
    (hKeeps : KeepsDrift d k l) :
    driftedCount d l ≤ driftedCount d k := by
  unfold driftedCount
  rw [List.countP_eq_length_filter, List.countP_eq_length_filter]
  apply List.Subperm.length_le
  apply List.subperm_of_subset
  · have hNodup : l.symbols.entries.Nodup :=
      List.Pairwise.of_map Prod.fst
        (fun _ _ hKeys hSame => hKeys (congrArg Prod.fst hSame))
        l.symbols.nodup
    exact hNodup.filter _
  · intro item hItem
    rcases List.mem_filter.mp hItem with ⟨hMem, hDrifted⟩
    refine List.mem_filter.mpr ⟨?_, hDrifted⟩
    exact Keyed.get?_eq_some_iff.mp
      (hKeeps item.1 item.2 (Keyed.get?_eq_some_iff.mpr hMem)
        hDrifted)

variable {c : Context} {updateOther : String → Work Unit}
  {file symbol : String} {mtime : Int} {i next final : Index}

/-
  How the claim of a symbol ends once room was made for it: an
  error that came on the way ends it, and so does an entry that
  still stands.
-/
def claimedAfter
    (file : String)
    (mtime : Int)
    (symbol : String) : Ending → Ending
| .error error final => .error error final
| .ok _ next =>
    match next.known.symbols.get? symbol with
    | some standing =>
        .error (.ambiguous symbol standing.file file) next
    | none => .ok () (next.entered symbol ⟨file, mtime⟩)

/- Nothing has drifted, so there is nothing to make room for. -/
theorem reclaim_of_clear
    (hClear :
      ∀ previous,
        i.known.symbols.get? symbol = some previous →
          hasDrifted c.disk previous = false) :
    reclaim c updateOther file mtime symbol i =
      claimedAfter file mtime symbol (.ok () i) := by
  unfold claimedAfter
  cases hSymbol : i.known.symbols.get? symbol with
  | none =>
      simp only [hSymbol]
      exact reclaim_of_none hSymbol
  | some previous =>
      have hEntry : entry? symbol i = .ok (some previous) i := by
        rw [← hSymbol]
        rfl
      unfold reclaim
      rw [Work.bind_of_ok hEntry]
      simp only [hClear previous hSymbol, Bool.false_eq_true,
        if_false, hSymbol]
      rw [Work.bind_of_ok hEntry]
      rfl

/- A drifted entry makes the claim wait for its file. -/
theorem reclaim_of_drifted
    {previous : Entry}
    (hSymbol : i.known.symbols.get? symbol = some previous)
    (hDrifted : hasDrifted c.disk previous = true) :
    reclaim c updateOther file mtime symbol i =
      claimedAfter file mtime symbol
        (updateOther previous.file i) := by
  have hEntry :
      ∀ j : Index,
        entry? symbol j = .ok (j.known.symbols.get? symbol) j :=
    fun _ => rfl
  unfold reclaim
  rw [Work.bind_of_ok (hEntry i), hSymbol]
  simp only [hDrifted, if_true]
  cases hUpdate : updateOther previous.file i with
  | error error final => exact Work.bind_of_error hUpdate
  | ok value next =>
      rw [Work.bind_of_ok hUpdate, Work.bind_of_ok (hEntry next)]
      unfold claimedAfter
      dsimp only
      cases next.known.symbols.get? symbol <;> rfl

section Within

/- With fewer updates left, every file is updated as it runs. -/
variable {fuel : Nat}
variable
  (hLess :
    ∀ file i,
      driftedCount c.disk (i.forgotten file).known < fuel →
        ∃ nested,
          Runs c (.file file) i nested
            (updateWithin c fuel file i))

include hLess

/- Room is made by an update that is left, if it is needed. -/
theorem exists_runs_room
    (symbol : String)
    (hCount : driftedCount c.disk i.known ≤ fuel) :
    ∃ nested ending,
      Runs c (.room symbol) i nested ending ∧
      reclaim c (updateWithin c fuel) file mtime symbol i =
        claimedAfter file mtime symbol ending := by
  by_cases hClear :
      ∀ previous,
        i.known.symbols.get? symbol = some previous →
          hasDrifted c.disk previous = false
  · exact ⟨[], .ok () i, .clear hClear, reclaim_of_clear hClear⟩
  · simp only [not_forall, Bool.not_eq_false] at hClear
    rcases hClear with ⟨previous, hSymbol, hDrifted⟩
    have hFewer := driftedCount_forgotten_lt hSymbol hDrifted
    rcases hLess previous.file i (by omega) with ⟨nested, hRuns⟩
    exact ⟨_, _, .made hSymbol hDrifted hRuns,
      reclaim_of_drifted hSymbol hDrifted⟩

/-
  The symbols of a file are claimed as they run. The induction
  is on the symbols that are left.
-/
theorem exists_runs_claims
    (hTimely : hasDrifted c.disk ⟨file, mtime⟩ = false)
    (symbols : List String)
    (hCount : driftedCount c.disk i.known ≤ fuel) :
    ∃ nested,
      Runs c (.claims file mtime symbols) i nested
        (symbols.forM
          (reclaim c (updateWithin c fuel) file mtime) i) := by
  induction symbols generalizing i with
  | nil => exact ⟨[], .done⟩
  | cons symbol rest ih =>
      rcases exists_runs_room hLess symbol hCount with
        ⟨nested, ending, hRoom, hClaim⟩
      unfold claimedAfter at hClaim
      cases ending with
      | error error final =>
          rw [Work.forM_cons_of_error hClaim]
          exact ⟨nested, .stopped hRoom⟩
      | ok value next =>
          dsimp only at hClaim
          cases hSymbol : next.known.symbols.get? symbol with
          | some standing =>
              rw [hSymbol] at hClaim
              rw [Work.forM_cons_of_error hClaim]
              exact ⟨nested, .taken hRoom hSymbol⟩
          | none =>
              rw [hSymbol] at hClaim
              rw [Work.forM_cons_of_ok hClaim]
              have hKeeps :
                  KeepsDrift c.disk i.known
                    (next.entered symbol ⟨file, mtime⟩).known :=
                (hRoom.keepsDrift trivial).trans
                  (keepsDrift_entered hTimely _ _)
              rcases ih (hKeeps.driftedCount_le.trans hCount) with
                ⟨more, hRest⟩
              exact ⟨nested ++ more, .entered hRoom hSymbol hRest⟩

end Within

/-
  With more updates left than there are drifted entries in other
  files, an update ends as it runs without a bound. The
  induction is on the updates that are left: each one within
  another takes a drifted entry away.
-/
theorem exists_runs_updateWithin
    (c : Context)
    (fuel : Nat)
    (file : String)
    (i : Index)
    (hCount :
      driftedCount c.disk (i.forgotten file).known < fuel) :
    ∃ nested,
      Runs c (.file file) i nested (updateWithin c fuel file i) := by
  induction fuel generalizing file i with
  | zero => omega
  | succ fuel ih =>
      cases hScan : scanAgain c file i with
      | error error next =>
          rw [updateWithin_of_error hScan]
          exact ⟨[], .refused hScan⟩
      | ok found next =>
          cases found with
          | none =>
              rw [updateWithin_of_none hScan]
              exact ⟨[], .dropped hScan⟩
          | some found =>
              rcases isTimely_of_scanAgain hScan with
                ⟨hTimely, hKeeps⟩
              have hFewer := hKeeps.driftedCount_le
              rw [updateWithin_of_some hScan]
              rcases exists_runs_claims ih hTimely found.2
                  (i := next) (by omega) with
                ⟨nested, hClaims⟩
              refine ⟨nested, ?_⟩
              cases hLoop :
                  found.2.forM
                    (reclaim c (updateWithin c fuel) file found.1)
                    next with
              | error error final =>
                  rw [Work.bind_of_error hLoop]
                  rw [hLoop] at hClaims
                  exact .halted hScan hClaims
              | ok value middle =>
                  rw [Work.bind_of_ok hLoop]
                  rw [hLoop] at hClaims
                  exact .told hScan hClaims rfl

/- An update is never stopped by its bound. -/
theorem exists_runs_update
    (c : Context)
    (file : String)
    (i : Index) :
    ∃ nested, Runs c (.file file) i nested (update c file i) := by
  have hFewer := driftedCount_forgotten_le c.disk i file
  have hSize := driftedCount_le_size c.disk i.known
  exact exists_runs_updateWithin c (i.known.symbols.size + 1) file
    i (by omega)

/-
  Every update ends, in exactly one way, whatever the index. No
  file is updated twice, nor is one scanned for more than one
  update. Each update within it is for a file that had a drifted
  entry when the outermost one began and when its own turn came,
  and that has none after its turn and in the end.
-/
theorem update_ends
    (c : Context)
    (file : String)
    (i : Index) :
    ∃ nested,
      (∀ others ending,
        Runs c (.file file) i others ending ↔
          others = nested ∧ ending = update c file i) ∧
      (file :: nested.map Nested.file).Nodup ∧
      ScansAmong i (Work.stateAfter (update c file i))
        (file :: nested.map Nested.file) ∧
      ∀ n ∈ nested,
        IsStale c.disk i.known n.file ∧
        IsStale c.disk n.before.known n.file ∧
        ¬ IsStale c.disk n.after.known n.file ∧
        ¬ IsStale c.disk
          (Work.stateAfter (update c file i)).known n.file := by
  rcases exists_runs_update c file i with ⟨nested, hRuns⟩
  have hFresh :=
    (hRuns.fresh trivial).mono
      (keepsDrift_forgotten c.disk i file) (KeepsDrift.refl _ _)
  refine ⟨nested, ?_, hRuns.nodup_files, hRuns.scansAmong, ?_⟩
  · intro others ending
    constructor
    · exact hRuns.unique
    · intro hSame
      rw [hSame.1, hSame.2]
      exact hRuns
  · intro n hN
    exact ⟨hFresh.stale n hN, hFresh.before n hN,
      hFresh.after n hN, hFresh.final n hN⟩

end Index

end SymbolAtlas
