import SymbolAtlas.Proofs.Console.Discreet
import SymbolAtlas.Proofs.Loader.Closing
import SymbolAtlas.Proofs.Text.Literal

/-
  Which errors a command reports.

  A command waits for the errors of the loader, of a query that
  is refined and of a search. It does not wait for those of the
  settings, of the masks and of the store it only looks into.
  What it waits for it reports, as far as the tags in the message
  fit; what it does not wait for goes through.

  Key definitions:
    * `Console.Stage`, `Console.Raises`
    * `Console.Outcome.Reports`
  Key theorems:
    * `Console.Raises.reports`, `Console.Raises.escapes`
    * `Console.raises_of_crash`
    * `Console.watched_failures_are_reported`
-/

------------------------------------------------------------
-- Steps That Fail
------------------------------------------------------------

namespace SymbolAtlas

namespace Console

/- The parts of a command that may fail. -/
inductive Stage where
  | settings
  | masks
  | store
  | loader
  | query
  | search
deriving DecidableEq, Repr

/- The command waits for errors of this part. -/
def Stage.isWatched : Stage → Bool
| .settings => false
| .masks => false
| .store => false
| .loader => true
| .query => true
| .search => true

/- The project that a command is about, if it is about one. -/
def Command.target? : Command → Option Target
| .rebuild t => some t
| .resolve t _ => some t
| .list t => some t
| .find _ => none
| .status t => some t

/- What a rebuild does with its loader. -/
def rebuilding :
    Loader.Work (List (String × String) × String) := do
  Loader.rebuild
  let symbols ← Loader.listing
  return (symbols, (← Loader.store).path)

/- A symbol without the backslashes in front. -/
def bareName (symbol : String) : String :=
  String.ofList (symbol.toList.dropWhile (· == '\\'))

/- The work that a command has for the loader of a project. -/
inductive Loads :
    Command → Target → {α : Type} → Loader.Work α → Prop
| rebuild (t : Target) : Loads (.rebuild t) t rebuilding
| resolve (t : Target) (symbol : String) :
    Loads (.resolve t symbol) t (Loader.resolve (bareName symbol))
| list (t : Target) : Loads (.list t) t Loader.listing

/- The query for the masks of a search. -/
def maskQuery (h : Hunt) : Except Error Query :=
  if h.dirs then Query.findDirectories h.masks
  else Query.findFiles h.masks

/- The console before a command. -/
def opened (d : Disk) : Console :=
  ⟨⟨d, []⟩, []⟩

/- The lines that show a text, and those of it that are folded. -/
def linesOf (text : String) : List String :=
  (Screen.lines (String.ofList (Emoji.replaced text.toList))).map
    String.ofList

def foldedLines (text : String) : List String :=
  (Screen.wrap .fold columns text).map String.ofList

/-
  A part of the command ends with an error, after some lines
  were printed.
-/
inductive Raises (d : Disk) (env : Variables) :
    Command → Stage → Error → List String → Prop
| settings {command : Command} {t : Target} {error : Error}
    {desk : Desk}
    (hTarget : command.target? = some t)
    (hLoad :
      Settings.load (t.project.getD (Disk.textOf d.cwd)) env
        ⟨d, []⟩ = .error error desk) :
    Raises d env command .settings error []
| masks {h : Hunt} {error : Error}
    (hMasks : maskQuery h = .error error) :
    Raises d env (.find h) .masks error []
| key {t : Target} {s : Settings} {c : Console} {error : Error}
    (hSettings : settingsFor t env (opened d) = .ok s c)
    (hKey : Key.ofSettings s c.desk.disk = .error error) :
    Raises d env (.status t) .store error c.printed
| artifact {t : Target} {s : Settings} {c : Console} {key : String}
    {error : Error} {desk : Desk}
    (hSettings : settingsFor t env (opened d) = .ok s c)
    (hKey : Key.ofSettings s c.desk.disk = .ok key)
    (hRead :
      Store.read
          { directory := s.cacheDir.getD "", key
            isDebug := s.isDebug } c.desk =
        .error error desk) :
    Raises d env (.status t) .store error c.printed
| start {command : Command} {t : Target} {α : Type}
    {w : Loader.Work α} {s : Settings} {c : Console}
    {error : Error} {desk : Desk}
    (hLoads : Loads command t w)
    (hSettings : settingsFor t env (opened d) = .ok s c)
    (hStart : Loader.start s c.desk = .error error desk) :
    Raises d env command .loader error c.printed
| work {command : Command} {t : Target} {α : Type}
    {w : Loader.Work α} {s : Settings} {c : Console}
    {error : Error} {desk : Desk} {loader after : Loader}
    (hLoads : Loads command t w)
    (hSettings : settingsFor t env (opened d) = .ok s c)
    (hStart : Loader.start s c.desk = .ok loader desk)
    (hWork : w loader = .error error after) :
    Raises d env command .loader error c.printed
| close {command : Command} {t : Target} {α : Type}
    {w : Loader.Work α} {s : Settings} {c : Console} {value : α}
    {error : Error} {desk : Desk} {loader after closed : Loader}
    (hLoads : Loads command t w)
    (hSettings : settingsFor t env (opened d) = .ok s c)
    (hStart : Loader.start s c.desk = .ok loader desk)
    (hWork : w loader = .ok value after)
    (hClose : Loader.close after = .error error closed) :
    Raises d env command .loader error c.printed
| query {h : Hunt} {query : Query} {error : Error}
    (hMasks : maskQuery h = .ok query)
    (hRefine : refine h query = .error error) :
    Raises d env (.find h) .query error []
| search {h : Hunt} {query full : Query} {error : Error}
    (hMasks : maskQuery h = .ok query)
    (hRefine : refine h query = .ok full)
    (hSearch : (full.run d).failure = some error) :
    Raises d env (.find h) .search error
      ((full.run d).records.flatMap fun record =>
        linesOf record.path)

/-
  The outcome tells the error in lines behind those that were
  printed, if the tags in its message fit.
-/
def Outcome.Reports
    (o : Outcome)
    (error : Error)
    (printed : List String) : Prop :=
  o.code = 1 ∧
    match Markup.plain error.line with
    | .ok text =>
        o.error = none ∧
          o.console.printed = printed ++ foldedLines text
    | .error other =>
        o.error = some other ∧ o.console.printed = printed

end Console

end SymbolAtlas

------------------------------------------------------------
-- Errors That Are Reported
------------------------------------------------------------

namespace SymbolAtlas

namespace Console

variable {α β : Type} {error : Error} {c : Console}
  {printed : List String}

/- The command ends as one that reports the error. -/
def Tells
    (error : Error)
    (printed : List String)
    (result : EStateM.Result Stop Console α) : Prop :=
  ∃ stop final,
    result = .error stop final ∧
    match Markup.plain error.line with
    | .ok text =>
        stop = .status 1 ∧
          final.printed = printed ++ foldedLines text
    | .error other =>
        stop = .crash other ∧ final.printed = printed

/- An error of this library's own domain is told. -/
theorem tells_report
    (hReported : error.isReported = true)
    (c : Console) :
    Tells error c.printed ((report (.error error) : Work α) c) := by
  have hReport :
      (report (.error error) : Work α) =
        (printMarkup error.line >>= fun _ => throw (.status 1)) := by
    unfold report
    simp only [hReported, if_true]
    rfl
  unfold Tells
  rw [hReport]
  unfold printMarkup
  cases Markup.plain error.line with
  | error other => exact ⟨_, _, rfl, rfl, rfl⟩
  | ok text => exact ⟨_, _, rfl, rfl, rfl⟩

/- What would come next makes no difference. -/
theorem Tells.bind
    {first : Work α}
    {next : α → Work β}
    (hFirst : Tells error printed (first c)) :
    Tells error printed ((first >>= next) c) := by
  rcases hFirst with ⟨stop, final, hFails, hEnd⟩
  exact ⟨stop, final, Work.bind_of_error hFails, hEnd⟩

theorem Tells.of_ok
    {first : Work α}
    {next : α → Work β}
    {value : α}
    {middle : Console}
    (hFirst : first c = .ok value middle)
    (hNext : Tells error printed (next value middle)) :
    Tells error printed ((first >>= next) c) := by
  rw [Work.bind_of_ok hFirst]
  exact hNext

end Console

end SymbolAtlas

------------------------------------------------------------
-- Errors of the Loader
------------------------------------------------------------

namespace SymbolAtlas

namespace Console

variable {command : Command} {t : Target} {α : Type}
  {w : Loader.Work α} {s : Settings} {c : Console} {desk : Desk}
  {loader after : Loader} {error : Error}

theorem withLoader_of_start
    (hStart : Loader.start s c.desk = .error error desk) :
    withLoader s w c =
      .ok (.error error) { c with desk := desk } :=
  onDesk_of_error (Work.bind_of_error hStart)

theorem withLoader_of_thenClose
    (hStart : Loader.start s c.desk = .ok loader desk)
    (hFails : Loader.thenClose w loader = .error error after) :
    ∃ left,
      withLoader s w c =
        .ok (.error error) { c with desk := left } := by
  refine ⟨⟨after.desk.disk, desk.notices ++ after.desk.notices⟩,
    onDesk_of_error ?_⟩
  rw [Work.bind_of_ok hStart]
  simp only [hFails]
  rfl

/- The work of a command that fails leaves nothing to save. -/
theorem Loads.isUnmarked
    (hLoads : Loads command t w)
    (hUnmarked : loader.IsUnmarked)
    (hWork : w loader = .error error after) :
    after.IsUnmarked := by
  cases hLoads with
  | rebuild =>
      have hKeeps : Work.Keeps Loader.IsUnmarked rebuilding :=
        Loader.unmarked_rebuild.bind fun _ =>
          Loader.unmarked_listing.bind fun _ =>
            Loader.unmarked_store.bind fun _ => Work.keeps_pure _
      have hAfter := hKeeps loader hUnmarked
      rw [hWork] at hAfter
      exact hAfter
  | resolve => exact Loader.isUnmarked_of_resolve hUnmarked hWork
  | list =>
      have hAfter := Loader.unmarked_listing loader hUnmarked
      rw [hWork] at hAfter
      exact hAfter

/- The error of the work is not hidden by that of the closing. -/
theorem Loads.withLoader_of_work
    (hLoads : Loads command t w)
    (hStart : Loader.start s c.desk = .ok loader desk)
    (hWork : w loader = .error error after) :
    ∃ left,
      withLoader s w c =
        .ok (.error error) { c with desk := left } := by
  have hUnmarked := Loader.isUnmarked_of_start hStart
  rcases Loader.thenClose_of_error hWork
      (hLoads.isUnmarked hUnmarked hWork) with
    ⟨closed, hFails⟩
  exact withLoader_of_thenClose hStart hFails

theorem withLoader_of_close
    {value : α}
    {closed : Loader}
    (hStart : Loader.start s c.desk = .ok loader desk)
    (hWork : w loader = .ok value after)
    (hClose : Loader.close after = .error error closed) :
    ∃ left,
      withLoader s w c =
        .ok (.error error) { c with desk := left } := by
  have hFails :
      Loader.thenClose w loader = .error error closed := by
    unfold Loader.thenClose
    simp only [hWork, hClose]
  exact withLoader_of_thenClose hStart hFails

end Console

end SymbolAtlas

------------------------------------------------------------
-- Commands
------------------------------------------------------------

namespace SymbolAtlas

namespace Console

variable {d : Disk} {env : Variables} {command : Command}
  {t : Target} {α : Type} {w : Loader.Work α} {error : Error}
  {printed : List String} {stage : Stage}

/- A command with a loader reports what its work ends with. -/
theorem Loads.run_eq
    (hLoads : Loads command t w)
    (env : Variables) :
    ∃ next : Settings → α → Work Unit,
      (∀ s value, Discreet (next s value)) ∧
      run env command = (do
        let s ← settingsFor t env
        let value ← report (← withLoader s w)
        next s value) := by
  cases hLoads with
  | rebuild =>
      exact ⟨_, fun _ _ => discreet_printLines _, rfl⟩
  | resolve t symbol =>
      refine ⟨_, fun _ value => ?_, rfl⟩
      split
      · exact discreet_printLines _
      · exact discreet_refuse _ _
  | list =>
      refine ⟨_, fun _ value => ?_, rfl⟩
      dsimp only
      split
      · exact discreet_printLines _
      · exact discreet_printLines _

/- A command that shows the status has the settings first. -/
theorem run_status_eq
    (t : Target)
    (env : Variables) :
    ∃ next : Settings → Work Unit,
      (∀ s, Discreet (next s)) ∧
      run env (.status t) = (do
        let s ← settingsFor t env
        next s) := by
  refine ⟨_, fun s => ?_, rfl⟩
  refine Work.fails_get.bind fun c => ?_
  refine (discreet_expose (failsWith_key s _)).bind fun key => ?_
  refine discreet_exposed (fails_read _) fun known => ?_
  refine (discreet_printLines _).bind fun _ => ?_
  exact (discreet_printLines _).bind fun _ => discreet_printLines _

/- The steps of a search behind its masks. -/
def hunting (h : Hunt) (query : Query) : Work Unit := do
  let query ← report (refine h query)
  let trace := query.run (← get).desk.disk
  trace.records.forM fun record => printText record.path
  match trace.failure with
  | some error => report (.error error)
  | none =>
      if trace.records.isEmpty then printText "No matches."

theorem run_find_eq
    (h : Hunt)
    (env : Variables) :
    run env (.find h) = (do
      let query ← expose (maskQuery h)
      hunting h query) :=
  rfl

theorem discreet_hunting
    (h : Hunt)
    (query : Query) :
    Discreet (hunting h query) := by
  refine (discreet_report _).bind fun full => ?_
  refine Work.fails_get.bind fun c => ?_
  refine Work.Fails.bind ?_ fun _ => ?_
  · exact Work.Fails.forM fun record _ => discreet_printLines _
  · split
    · exact discreet_report _
    · split
      · exact discreet_printLines _
      · exact Work.fails_pure _

/- The records are printed one after the other. -/
theorem forM_printText
    (records : List Record)
    (c : Console) :
    records.forM (fun record => printText record.path) c =
      .ok ()
        { c with
          printed :=
            c.printed ++
              records.flatMap fun record =>
                linesOf record.path } := by
  induction records generalizing c with
  | nil =>
      rw [List.flatMap_nil, List.append_nil]
      rfl
  | cons record rest ih =>
      have hFirst :
          printText record.path c =
            .ok ()
              { c with
                printed := c.printed ++ linesOf record.path } :=
        rfl
      rw [Work.forM_cons_of_ok
          (f := fun record : Record => printText record.path)
          hFirst, ih, List.flatMap_cons, List.append_assoc]

/- The settings are loaded first, and then are looked over. -/
theorem settingsFor_eq
    (env : Variables)
    (t : Target) :
    ∃ next : Settings → Work Settings,
      (∀ s, Discreet (next s)) ∧
      settingsFor t env = (do
        let d := (← get).desk.disk
        let project := t.project.getD (Disk.textOf d.cwd)
        let s ← expose (← onDesk (Settings.load project env))
        next s) := by
  refine ⟨_, fun s => ?_, rfl⟩
  generalize
    (if t.verbose then { s with logLevel := "DEBUG" }
      else s : Settings) = full
  dsimp only
  split
  · exact (discreet_refuse _ _).bind fun _ => Work.fails_pure _
  · exact Work.fails_pure _

theorem settingsFor_opened
    (d : Disk)
    (env : Variables)
    (t : Target) :
    ∃ next : Settings → Work Settings,
      (∀ s, Discreet (next s)) ∧
      settingsFor t env (opened d) =
        (do
          let s ← expose (← onDesk
            (Settings.load (t.project.getD (Disk.textOf d.cwd))
              env))
          next s : Work Settings) (opened d) := by
  rcases settingsFor_eq env t with ⟨next, hNext, hSettings⟩
  refine ⟨next, hNext, ?_⟩
  rw [hSettings, Work.bind_of_ok (Work.get_eq (opened d))]
  rfl

/- Errors of the settings go through. -/
theorem settingsFor_of_error
    {desk : Desk}
    (hLoad :
      Settings.load (t.project.getD (Disk.textOf d.cwd)) env
        ⟨d, []⟩ = .error error desk) :
    settingsFor t env (opened d) =
      .error (.crash error) ⟨desk, []⟩ := by
  rcases settingsFor_opened d env t with ⟨next, -, hSettings⟩
  rw [hSettings,
    Work.bind_of_ok (onDesk_of_error (c := opened d) hLoad)]
  rfl

/- What goes through with the settings is one of their errors. -/
theorem load_of_crash
    {c : Console}
    (hFails :
      settingsFor t env (opened d) = .error (.crash error) c)
    (hReported : error.isReported = true) :
    ∃ desk,
      Settings.load (t.project.getD (Disk.textOf d.cwd)) env
        ⟨d, []⟩ = .error error desk := by
  rcases settingsFor_opened d env t with ⟨next, hNext, hSettings⟩
  cases hLoad :
      Settings.load (t.project.getD (Disk.textOf d.cwd)) env
        ⟨d, []⟩ with
  | error other desk =>
      rw [settingsFor_of_error hLoad] at hFails
      cases hFails
      exact ⟨desk, rfl⟩
  | ok s desk =>
      rw [hSettings,
        Work.bind_of_ok (onDesk_of_ok (c := opened d) hLoad)]
        at hFails
      have hHidden := hNext s _ _ _ hFails error rfl
      rw [hReported] at hHidden
      cases hHidden

theorem expose_ok
    (value : α)
    (c : Console) :
    expose (.ok value) c = .ok value c :=
  rfl

theorem report_ok
    (value : α)
    (c : Console) :
    report (.ok value) c = .ok value c :=
  rfl

/- A command about a project has its settings first. -/
theorem run_target_eq
    (hTarget : command.target? = some t)
    (env : Variables) :
    ∃ next : Settings → Work Unit,
      (∀ s, Discreet (next s)) ∧
      run env command = (do
        let s ← settingsFor t env
        next s) := by
  have hLoaded
      {α : Type}
      {w : Loader.Work α}
      (hLoads : Loads command t w) :
      ∃ next : Settings → Work Unit,
        (∀ s, Discreet (next s)) ∧
        run env command = (do
          let s ← settingsFor t env
          next s) := by
    rcases hLoads.run_eq env with ⟨next, hNext, hRun⟩
    refine ⟨_, fun s => ?_, hRun⟩
    refine (discreet_onDesk _).bind fun result => ?_
    exact (discreet_report result).bind (hNext s)
  cases command with
  | find h => cases hTarget
  | rebuild _ =>
      cases hTarget
      exact hLoaded (.rebuild t)
  | resolve _ symbol =>
      cases hTarget
      exact hLoaded (.resolve t symbol)
  | list _ =>
      cases hTarget
      exact hLoaded (.list t)
  | status _ =>
      cases hTarget
      exact run_status_eq t env

/- What the command waits for it tells. -/
theorem Raises.tells
    (hRaises : Raises d env command stage error printed)
    (hWatched : stage.isWatched = true)
    (hReported : error.isReported = true) :
    Tells error printed (run env command (opened d)) := by
  have hLoaded
      {t : Target}
      {α : Type}
      {w : Loader.Work α}
      {s : Settings}
      {c : Console}
      {left : Desk}
      (hLoads : Loads command t w)
      (hSettings : settingsFor t env (opened d) = .ok s c)
      (hWith :
        withLoader s w c =
          .ok (.error error) { c with desk := left }) :
      Tells error c.printed (run env command (opened d)) := by
    rcases hLoads.run_eq env with ⟨next, -, hRun⟩
    rw [hRun]
    refine Tells.of_ok hSettings (Tells.of_ok hWith ?_)
    exact (tells_report hReported _).bind
  cases hRaises with
  | settings _ _ => cases hWatched
  | masks _ => cases hWatched
  | key _ _ => cases hWatched
  | artifact _ _ _ => cases hWatched
  | start hLoads hSettings hStart =>
      exact hLoaded hLoads hSettings (withLoader_of_start hStart)
  | work hLoads hSettings hStart hWork =>
      rcases hLoads.withLoader_of_work hStart hWork with
        ⟨left, hWith⟩
      exact hLoaded hLoads hSettings hWith
  | close hLoads hSettings hStart hWork hClose =>
      rcases withLoader_of_close hStart hWork hClose with
        ⟨left, hWith⟩
      exact hLoaded hLoads hSettings hWith
  | @query h query _ hMasks hRefine =>
      rw [run_find_eq, hMasks]
      refine Tells.of_ok (expose_ok query _) ?_
      unfold hunting
      rw [hRefine]
      exact (tells_report hReported (opened d)).bind
  | @search h query full _ hMasks hRefine hSearch =>
      have hTrace :
          (full.run (opened d).desk.disk).failure = some error :=
        hSearch
      rw [run_find_eq, hMasks]
      refine Tells.of_ok (expose_ok query _) ?_
      unfold hunting
      rw [hRefine]
      refine Tells.of_ok (report_ok full _) ?_
      refine Tells.of_ok (Work.get_eq (opened d)) ?_
      refine Tells.of_ok (forM_printText _ (opened d)) ?_
      rw [hTrace]
      exact tells_report hReported _

/- What it does not wait for goes through. -/
theorem Raises.escapes
    (hRaises : Raises d env command stage error printed)
    (hUnwatched : stage.isWatched = false)
    (hReported : error.isReported = true) :
    ∃ final,
      run env command (opened d) = .error (.crash error) final ∧
      final.printed = printed := by
  cases hRaises with
  | @settings _ t _ desk hTarget hLoad =>
      rcases run_target_eq hTarget env with ⟨next, -, hRun⟩
      rw [hRun]
      exact ⟨⟨desk, []⟩,
        Work.bind_of_error (settingsFor_of_error hLoad), rfl⟩
  | masks hMasks =>
      rw [run_find_eq, hMasks]
      exact ⟨opened d, rfl, rfl⟩
  | key _ hKey =>
      have hHidden := failsWith_key _ _ _ hKey
      cases hReported.symm.trans hHidden
  | artifact _ _ hRead =>
      have hHidden := fails_read _ _ _ _ hRead
      cases hReported.symm.trans hHidden
  | start _ _ _ => cases hUnwatched
  | work _ _ _ _ => cases hUnwatched
  | close _ _ _ _ _ => cases hUnwatched
  | query _ _ => cases hUnwatched
  | search _ _ _ => cases hUnwatched

/- Only errors of the settings and of the masks go through. -/
theorem raises_of_crash
    {final : Console}
    (hFails :
      run env command (opened d) = .error (.crash error) final)
    (hReported : error.isReported = true) :
    Raises d env command .settings error [] ∨
      Raises d env command .masks error [] := by
  have hProject
      {t : Target}
      (hTarget : command.target? = some t) :
      Raises d env command .settings error [] := by
    rcases run_target_eq hTarget env with ⟨next, hNext, hRun⟩
    rw [hRun] at hFails
    cases hSettings : settingsFor t env (opened d) with
    | error stop c =>
        rw [Work.bind_of_error hSettings] at hFails
        cases hFails
        rcases load_of_crash hSettings hReported with ⟨desk, hLoad⟩
        exact .settings hTarget hLoad
    | ok s c =>
        rw [Work.bind_of_ok hSettings] at hFails
        have hHidden := hNext s _ _ _ hFails error rfl
        cases hReported.symm.trans hHidden
  cases command with
  | rebuild t => exact .inl (hProject rfl)
  | resolve t symbol => exact .inl (hProject rfl)
  | list t => exact .inl (hProject rfl)
  | status t => exact .inl (hProject rfl)
  | find h =>
      right
      cases hMasks : maskQuery h with
      | error other =>
          rw [run_find_eq, hMasks] at hFails
          cases hFails
          exact .masks hMasks
      | ok query =>
          rw [run_find_eq, hMasks,
            Work.bind_of_ok (expose_ok query _)] at hFails
          have hHidden :=
            discreet_hunting h query _ _ _ hFails error rfl
          cases hReported.symm.trans hHidden

end Console

end SymbolAtlas

------------------------------------------------------------
-- Command Lines
------------------------------------------------------------

namespace SymbolAtlas

namespace Console

variable {d : Disk} {env : Variables} {arguments : List String}
  {command : Command}

theorem execute_eq
    (hCommand : Command.ofArguments? arguments = some command) :
    execute d env arguments =
      match run env command (opened d) with
      | .ok _ console => ⟨0, none, console⟩
      | .error (.status code) console => ⟨code, none, console⟩
      | .error (.crash error) console => ⟨1, some error, console⟩ := by
  unfold execute
  rw [hCommand]
  rfl

theorem reports_of_tells
    {error : Error}
    {printed : List String}
    (hCommand : Command.ofArguments? arguments = some command)
    (hTells : Tells error printed (run env command (opened d))) :
    (execute d env arguments).Reports error printed := by
  rcases hTells with ⟨stop, final, hRun, hEnd⟩
  rw [execute_eq hCommand, hRun]
  unfold Outcome.Reports
  cases hPlain : Markup.plain error.line with
  | error other =>
      rw [hPlain] at hEnd
      rcases hEnd with ⟨rfl, hPrinted⟩
      exact ⟨rfl, rfl, hPrinted⟩
  | ok text =>
      rw [hPlain] at hEnd
      rcases hEnd with ⟨rfl, hPrinted⟩
      exact ⟨rfl, rfl, hPrinted⟩

/- An error goes through as far as the command lets it. -/
theorem error_eq_some_iff
    {error : Error}
    (hCommand : Command.ofArguments? arguments = some command) :
    (execute d env arguments).error = some error ↔
      ∃ final,
        run env command (opened d) =
          .error (.crash error) final := by
  rw [execute_eq hCommand]
  cases run env command (opened d) with
  | ok value final => simp
  | error stop final => cases stop <;> simp

theorem Outcome.Reports.of_plain
    {o : Outcome}
    {error : Error}
    {printed : List String}
    {text : String}
    (hReports : o.Reports error printed)
    (hPlain : Markup.plain error.line = .ok text) :
    o.error = none ∧
      o.console.printed = printed ++ foldedLines text := by
  unfold Outcome.Reports at hReports
  rw [hPlain] at hReports
  exact hReports.2

/- A message whose tags do not fit is not shown at all. -/
theorem Outcome.Reports.of_error
    {o : Outcome}
    {error other : Error}
    {printed : List String}
    (hReports : o.Reports error printed)
    (hPlain : Markup.plain error.line = .error other) :
    o.error = some other ∧
      o.console.printed = printed := by
  unfold Outcome.Reports at hReports
  rw [hPlain] at hReports
  exact hReports.2

/-
  A command reports an error of its own domain with status one
  wherever it waits for errors, if the tags in the message fit,
  and word for word if the message has none. It does not wait
  for those of its settings and of its masks: exactly these go
  through.
-/
theorem watched_failures_are_reported
    (hCommand : Command.ofArguments? arguments = some command) :
    (∀ stage error printed,
      Raises d env command stage error printed →
      stage.isWatched = true →
      error.isReported = true →
        (execute d env arguments).Reports error printed ∧
        (Markup.IsLiteral error.message.toList →
          (execute d env arguments).error = none ∧
          (execute d env arguments).console.printed =
            printed ++
              foldedLines ("Error: " ++ error.message))) ∧
    ∀ error,
      error.isReported = true →
        ((execute d env arguments).error = some error ↔
          Raises d env command .settings error [] ∨
            Raises d env command .masks error []) := by
  refine ⟨?_, ?_⟩
  · intro stage error printed hRaises hWatched hReported
    have hReports :
        (execute d env arguments).Reports error printed :=
      reports_of_tells hCommand
        (hRaises.tells hWatched hReported)
    refine ⟨hReports, fun hLiteral => ?_⟩
    exact hReports.of_plain (Error.plain_line hLiteral)
  · intro error hReported
    rw [error_eq_some_iff hCommand]
    constructor
    · rintro ⟨final, hFails⟩
      exact raises_of_crash hFails hReported
    · rintro (hSettings | hMasks)
      · rcases hSettings.escapes rfl hReported with
          ⟨final, hFails, -⟩
        exact ⟨final, hFails⟩
      · rcases hMasks.escapes rfl hReported with
          ⟨final, hFails, -⟩
        exact ⟨final, hFails⟩

/- A disk with one directory, and a project with wrong settings. -/
def wrongProject : Disk where
  nodes := [
    (["w"], .newDirectory),
    (["w", "lib"], .newDirectory),
    (["w", "p"], .newDirectory),
    (["w", "p", ".classmap"], .newDirectory),
    (["w", "p", ".classmap", "config.toml"],
      .file "roots = 5".toUTF8 1000)]
  cwd := ["w"]

/- The error that ends a search, and what was printed before. -/
def huntFailure (h : Hunt) (d : Disk) :
    Option (Error × List String) :=
  match maskQuery h with
  | .error _ => none
  | .ok query =>
      match refine h query with
      | .error _ => none
      | .ok full =>
          let trace := full.run d
          trace.failure.map fun error =>
            (error, trace.records.flatMap fun record =>
              linesOf record.path)

theorem raises_of_huntFailure
    {h : Hunt}
    {error : Error}
    {printed : List String}
    (hFails : huntFailure h d = some (error, printed))
    (env : Variables) :
    Raises d env (.find h) .search error printed := by
  unfold huntFailure at hFails
  split at hFails
  · cases hFails
  · next query hMasks =>
      split at hFails
      · cases hFails
      · next full hRefine =>
          rcases Option.map_eq_some_iff.mp hFails with
            ⟨found, hFound, hSame⟩
          cases hSame
          exact .search hMasks hRefine hFound

theorem wrong_commands :
    Command.ofArguments? ["find", "*", "--in", "gone"] =
      some (.find { masks := ["*"], inDirs := ["gone"] }) ∧
    huntFailure { masks := ["*"], inDirs := ["gone"] }
      wrongProject = some (.noDirectory "gone", []) ∧
    Markup.plain (Error.noDirectory "gone").line =
      .ok "Error: Directory 'gone' does not exist." ∧
    Command.ofArguments? ["find", "/[/x]", "--in", "lib"] =
      some (.find { masks := ["/[/x]"], inDirs := ["lib"] }) ∧
    huntFailure { masks := ["/[/x]"], inDirs := ["lib"] }
      wrongProject = some (.maskAndLocation "/[/x]" "lib", []) ∧
    Markup.plain (Error.maskAndLocation "/[/x]" "lib").line =
      .error .unmatchedTag ∧
    Command.ofArguments? ["list", "-p", "/w/p"] =
      some (.list ⟨some "/w/p", false⟩) ∧
    (match Settings.load "/w/p" [] ⟨wrongProject, []⟩ with
      | .ok _ _ => none
      | .error error _ => some error) =
        some (.notStrings "roots") := by
  decide +kernel

/-
  A directory that is missing is reported. A mask with a tag that
  ends nothing is not, and wrong settings go through.
-/
theorem wrong_settings_go_through :
    (execute wrongProject []
      ["find", "*", "--in", "gone"]).console.printed =
        foldedLines "Error: Directory 'gone' does not exist." ∧
    (execute wrongProject []
      ["find", "/[/x]", "--in", "lib"]).error =
        some .unmatchedTag ∧
    (execute wrongProject [] ["list", "-p", "/w/p"]).error =
      some (.notStrings "roots") := by
  rcases wrong_commands with
    ⟨hGone, hGoneFails, hShown, hTag, hTagFails, hHidden, hList,
      hLoad⟩
  have hGoneReports :=
    (watched_failures_are_reported hGone).1 _ _ _
      (raises_of_huntFailure hGoneFails []) rfl rfl
  have hTagReports :=
    (watched_failures_are_reported hTag).1 _ _ _
      (raises_of_huntFailure hTagFails []) rfl rfl
  have hPrinted := (hGoneReports.1.of_plain hShown).2
  rw [List.nil_append] at hPrinted
  refine ⟨hPrinted, (hTagReports.1.of_error hHidden).1, ?_⟩
  apply ((watched_failures_are_reported hList).2 _ rfl).mpr
  left
  cases hSettings :
      Settings.load "/w/p" [] ⟨wrongProject, []⟩ with
  | ok s desk =>
      rw [hSettings] at hLoad
      cases hLoad
  | error error desk =>
      rw [hSettings] at hLoad
      cases hLoad
      exact .settings (t := ⟨some "/w/p", false⟩) rfl hSettings

end Console

end SymbolAtlas
