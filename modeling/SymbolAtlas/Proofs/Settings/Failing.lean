import SymbolAtlas.Proofs.Attempts
import SymbolAtlas.Proofs.Search.Failures
import SymbolAtlas.Proofs.Settings.Layers

/-
  How loading the settings can fail.

  Loading is a list of steps: the project is found, each file is
  read, and then the values that it says, one after the other.
  Most values are good whatever they are, so they are no steps.
  The first step that fails decides the error. If none does, the
  settings are there, and a file that is not well formed has only
  been told about.

  A value of the wrong kind is an error of the settings. But a
  file that is no UTF-8 text, a warning that cannot be shown, a
  value that has to be shown and cannot be, and a directory that
  has no real path are other errors.

  Key definitions:
    * `Settings.Step`, `Settings.Step.Fails`
    * `Settings.Found`, `Settings.found`
    * `Settings.stepsOf`, `Settings.FailsFirst`
    * `Settings.settingsOf`, `Settings.toldOf`
    * `Desk.Follows`
  Key theorems:
    * `Settings.trouble?_eq_some_iff`
    * `Settings.follows_layerAt`, `Settings.follows_load`
    * `Settings.load_ends_at_first_failure`
-/

------------------------------------------------------------
-- Steps
------------------------------------------------------------

namespace SymbolAtlas

namespace Settings

/- A step of loading that can fail. -/
inductive Step where
  | project (path : String)
  | file (path : String)
  | strings (setting : String) (value : Datum)
  | switch (setting : String) (value : Datum)
  | cache (value : Datum)
  | level (value : Datum)

/- What a file of settings is found to be. -/
inductive Found where
  | missing
  | noText
  | malformed (complaint : Toml.Complaint)
  | wellFormed (table : Datum)

/- What is found where a file of settings may be. -/
def found (d : Disk) (path : String) : Found :=
  match d.read path with
  | .error _ => .missing
  | .ok content =>
      match String.fromUTF8? content with
      | none => .noText
      | some text =>
          match Toml.parse text with
          | .ok table => .wellFormed table
          | .error complaint => .malformed complaint

/-
  The errors a step can end with. The settings are those of the
  project at the given root.
-/
inductive Step.Fails (d : Disk) (root : String) (room : Nat) :
    Step → Error → Prop where
  | nullProject {path : String}
      (hNull : Disk.holdsNull path = true) :
      Fails d root room (.project path) .nullCharacter
  | unfound {path : String}
      (hNull : Disk.holdsNull path = false)
      (hLoop : d.resolve path = .error .linkLoop) :
      Fails d root room (.project path) .linkLoop
  | unread {path : String}
      (hFound : found d path = .noText) :
      Fails d root room (.file path) .notUtf8
  | unshown {path : String} {complaint : Toml.Complaint}
      {error : Error}
      (hFound : found d path = .malformed complaint)
      (hShown :
        (Notice.settingsIgnored path complaint.text).text =
          .error error) :
      Fails d root room (.file path) error
  | strings {setting : String} {value : Datum}
      (hNot : ¬ IsTexts value) :
      Fails d root room (.strings setting value)
        (.notStrings setting)
  | switch {setting : String} {value : Datum}
      (hNot : ¬ IsTruth value)
      (hShown : Shows room value) :
      Fails d root room (.switch setting value)
        (.notBoolean setting value.shown)
  | hiddenSwitch {setting : String} {value : Datum} {error : Error}
      (hNot : ¬ IsTruth value)
      (hHidden : value.trouble? room = some error) :
      Fails d root room (.switch setting value) error
  | hiddenCache {value : Datum} {error : Error}
      (hHidden : value.trouble? room = some error) :
      Fails d root room (.cache value) error
  | homeless {value : Datum} {error : Error}
      (hShown : Shows room value)
      (hHome :
        d.expandHome (Route.ofText value.asText) = .error error)
      (hKind : error = .unknownHome ∨ error = .nullCharacter) :
      Fails d root room (.cache value) error
  | nullCache {value : Datum} {route : Route}
      (hShown : Shows room value)
      (hHome :
        d.expandHome (Route.ofText value.asText) = .ok route)
      (hNull :
        Disk.holdsNull (Route.ofText root ++ route).text = true) :
      Fails d root room (.cache value) .nullCharacter
  | looping {value : Datum} {route : Route}
      (hShown : Shows room value)
      (hHome :
        d.expandHome (Route.ofText value.asText) = .ok route)
      (hNull :
        Disk.holdsNull (Route.ofText root ++ route).text = false)
      (hLoop :
        d.resolve (Route.ofText root ++ route).text =
          .error .linkLoop) :
      Fails d root room (.cache value) .linkLoop
  | hiddenLevel {value : Datum} {error : Error}
      (hHidden : value.trouble? room = some error) :
      Fails d root room (.level value) error

/- The first of some steps that fails ends with the error. -/
def FailsFirst
    (d : Disk)
    (root : String)
    (room : Nat)
    (steps : List Step)
    (error : Error) : Prop :=
  ∃ before step after,
    steps = before ++ step :: after ∧
    step.Fails d root room error ∧
    ∀ earlier ∈ before, ∀ other,
      ¬ earlier.Fails d root room other

/-
  A value of a setting that has to be of some kind, and can be
  shown if it has to be for telling that it is not.
-/
def Step.IsValue (room : Nat) : Step → Prop
| .strings _ _ => True
| .switch _ value => Shows room value
| _ => False

/- The steps for those of the settings that are said. -/
def stepsFor
    (said : String → Option Datum)
    (step : String → Datum → Step)
    (names : List String) : List Step :=
  names.flatMap fun name => ((said name).map (step name)).toList

/- The table of a file that is well formed, or an empty one. -/
def Found.said : Found → Datum
| .wellFormed table => table
| _ => .record []

/- What is told about a file that is not well formed. -/
def Found.warnings (path : String) : Found → List Notice
| .malformed complaint => [.settingsIgnored path complaint.text]
| _ => []

def tableIn (d : Disk) (path : String) : Datum :=
  (found d path).said

def warningsAt (d : Disk) (path : String) : List Notice :=
  (found d path).warnings path

/- A file of settings is read, and then its values. -/
def stepsOfFile (d : Disk) (path : String) : List Step :=
  let said := (tableIn d path).field?
  .file path ::
    (stepsFor said .strings listSettings ++
      stepsFor said (fun _ => .cache) ["cache_dir"] ++
      stepsFor said .switch switches ++
      stepsFor said (fun _ => .level) ["log_level"])

/- The values of the variables that are not empty. -/
def stepsOfVariables (env : List (String × String)) : List Step :=
  let said := variableValue? env
  stepsFor said (fun _ => .cache) ["CACHE_DIR"] ++
    stepsFor said (fun name => .switch (variableName name))
      switchVariables ++
    stepsFor said (fun _ => .level) ["LOG_LEVEL"]

/- All steps of loading the settings, in their order. -/
def stepsOf
    (d : Disk)
    (project : String)
    (env : List (String × String)) : List Step :=
  .project project ::
    (stepsOfFile d (userFile d) ++
      stepsOfFile d (projectFile project) ++
      stepsOfVariables env)

/- The real path of the project, if it has one. -/
def rootOf (d : Disk) (project : String) : String :=
  (d.realPath project).toOption.getD ""

/- The directory for a cache, as a setting has it. -/
def placeOf (d : Disk) (root path : String) : String :=
  (resolvePath { projectDir := root } d path).toOption.getD ""

/- The settings that all layers make. -/
def settingsOf
    (d : Disk)
    (project : String)
    (env : List (String × String)) : Settings :=
  let root := rootOf d project
  merged root (placeOf d root) env
    (tableIn d (projectFile project)) (tableIn d (userFile d))

/- What is told of both files, of the user's first. -/
def toldOf (d : Disk) (project : String) : List Notice :=
  warningsAt d (userFile d) ++ warningsAt d (projectFile project)

end Settings

end SymbolAtlas

------------------------------------------------------------
-- The Trouble of a Step
------------------------------------------------------------

namespace SymbolAtlas

namespace Settings

variable {d : Disk} {root : String} {room : Nat} {step : Step}
  {error : Error}

def Found.trouble? (path : String) : Found → Option Error
| .noText => some .notUtf8
| .malformed complaint =>
    errorOf? (Notice.settingsIgnored path complaint.text).check
| _ => none

/- The error that a step ends with, if it fails. -/
def Step.trouble? (d : Disk) (root : String) (room : Nat) :
    Step → Option Error
| .project path => errorOf? (d.realPath path)
| .file path => (found d path).trouble? path
| .strings setting value => errorOf? (textsOf setting value)
| .switch setting value => errorOf? (boolOf setting room value)
| .cache value =>
    errorOf? (directoryOf { projectDir := root } d room value)
| .level value => errorOf? (levelOf room value)

theorem realPath_eq_error_iff
    {path : String} :
    d.realPath path = .error error ↔
      (Disk.holdsNull path = true ∧ error = .nullCharacter) ∨
      (Disk.holdsNull path = false ∧
        d.resolve path = .error .linkLoop ∧ error = .linkLoop) := by
  unfold Disk.realPath
  cases Disk.holdsNull path with
  | true => simp [eq_comm]
  | false =>
      simp only [Bool.false_eq_true, if_false, false_and, true_and,
        false_or]
      constructor
      · intro hError
        cases d.failsWith_resolve path error hError
        exact ⟨hError, rfl⟩
      · rintro ⟨hLoop, rfl⟩
        exact hLoop

/- A home is not found, or its name is none. -/
theorem failsWith_expandHome
    (d : Disk)
    (route : Route) :
    FailsWith
      (fun error => error = .unknownHome ∨ error = .nullCharacter)
      (d.expandHome route) := by
  unfold Disk.expandHome
  split
  · split
    · exact failsWith_ok _
    · split
      · apply failsWith_error
        split
        · exact .inr rfl
        · exact .inl rfl
      · exact failsWith_ok _
  · exact failsWith_ok _

theorem trouble?_project
    {path : String} :
    (Step.project path).trouble? d root room = some error ↔
      (Step.project path).Fails d root room error := by
  unfold Step.trouble?
  rw [errorOf?_eq_some_iff, realPath_eq_error_iff]
  constructor
  · rintro (⟨hNull, rfl⟩ | ⟨hNull, hLoop, rfl⟩)
    · exact .nullProject hNull
    · exact .unfound hNull hLoop
  · intro hFails
    cases hFails with
    | nullProject hNull => exact .inl ⟨hNull, rfl⟩
    | unfound hNull hLoop => exact .inr ⟨hNull, hLoop, rfl⟩

/- Only what cannot be shown is an error. -/
theorem check_eq_error_iff
    (notice : Notice) :
    notice.check = .error error ↔ notice.text = .error error := by
  unfold Notice.check
  cases notice.text with
  | error other => simp [Except.map]
  | ok text => simp [Except.map]

theorem Found.trouble?_eq_some_iff
    {file : Found}
    {path : String} :
    file.trouble? path = some error ↔
      (file = .noText ∧ error = .notUtf8) ∨
      ∃ complaint, file = .malformed complaint ∧
        (Notice.settingsIgnored path complaint.text).text =
          .error error := by
  unfold trouble?
  cases file with
  | malformed complaint =>
      dsimp only
      rw [errorOf?_eq_some_iff, check_eq_error_iff]
      simp
  | missing => simp
  | noText => simp [eq_comm]
  | wellFormed table => simp

theorem trouble?_file
    {path : String} :
    (Step.file path).trouble? d root room = some error ↔
      (Step.file path).Fails d root room error := by
  unfold Step.trouble?
  dsimp only
  rw [Found.trouble?_eq_some_iff]
  constructor
  · rintro (⟨hFound, rfl⟩ | ⟨complaint, hFound, hShown⟩)
    · exact .unread hFound
    · exact .unshown hFound hShown
  · intro hFails
    cases hFails with
    | unread hFound => exact .inl ⟨hFound, rfl⟩
    | unshown hFound hShown =>
        exact .inr ⟨_, hFound, hShown⟩

theorem trouble?_strings
    {setting : String}
    {value : Datum} :
    (Step.strings setting value).trouble? d root room =
        some error ↔
      (Step.strings setting value).Fails d root room error := by
  unfold Step.trouble?
  rw [errorOf?_eq_some_iff]
  constructor
  · intro hError
    cases failsWith_textsOf setting value error hError
    refine .strings fun hTexts => ?_
    rw [textsOf_of_isTexts hTexts] at hError
    cases hError
  · intro hFails
    cases hFails with
    | strings hNot =>
        rcases (decides_textsOf setting value).error
          (fun hBoth => hNot hBoth.1) with ⟨other, hOther⟩
        rw [hOther, failsWith_textsOf setting value other hOther]

/- What is no truth value is refused, or the refusal fails. -/
theorem trouble?_switch
    {setting : String}
    {value : Datum} :
    (Step.switch setting value).trouble? d root room =
        some error ↔
      (Step.switch setting value).Fails d root room error := by
  unfold Step.trouble?
  rw [errorOf?_eq_some_iff]
  by_cases hTruth : IsTruth value
  · rw [boolOf_of_isTruth hTruth]
    refine ⟨nofun, fun hFails => ?_⟩
    cases hFails with
    | switch hNot _ => exact absurd hTruth hNot
    | hiddenSwitch hNot _ => exact absurd hTruth hNot
  · rw [boolOf_of_not_isTruth hTruth, refusal_eq]
    cases hTrouble : value.trouble? room with
    | none =>
        constructor
        · rintro ⟨⟩
          exact .switch hTruth hTrouble
        · intro hFails
          cases hFails with
          | switch _ _ => rfl
          | hiddenSwitch _ hHidden =>
              rw [hTrouble] at hHidden
              cases hHidden
    | some other =>
        constructor
        · rintro ⟨⟩
          exact .hiddenSwitch hTruth hTrouble
        · intro hFails
          cases hFails with
          | switch _ hShown =>
              unfold Shows at hShown
              rw [hTrouble] at hShown
              cases hShown
          | hiddenSwitch _ hHidden =>
              rw [hTrouble] at hHidden
              cases hHidden
              rfl

theorem resolvePath_eq_error_iff
    {value : Datum}
    (hShown : Shows room value) :
    resolvePath { projectDir := root } d value.asText =
        .error error ↔
      (Step.cache value).Fails d root room error := by
  have hNone {other : Error} :
      value.trouble? room ≠ some other := by
    rw [show value.trouble? room = none from hShown]
    exact nofun
  unfold resolvePath
  cases hHome : d.expandHome (Route.ofText value.asText) with
  | error other =>
      dsimp only [bind, Except.bind]
      constructor
      · rintro ⟨⟩
        exact .homeless hShown hHome
          (failsWith_expandHome d _ error hHome)
      · intro hFails
        cases hFails with
        | hiddenCache hHidden => exact absurd hHidden hNone
        | homeless _ hError _ =>
            rw [hHome] at hError
            cases hError
            rfl
        | nullCache _ hOk _ =>
            rw [hHome] at hOk
            cases hOk
        | looping _ hOk _ _ =>
            rw [hHome] at hOk
            cases hOk
  | ok route =>
      dsimp only [bind, Except.bind]
      rw [realPath_eq_error_iff]
      constructor
      · rintro (⟨hNull, rfl⟩ | ⟨hNull, hLoop, rfl⟩)
        · exact .nullCache hShown hHome hNull
        · exact .looping hShown hHome hNull hLoop
      · intro hFails
        cases hFails with
        | hiddenCache hHidden => exact absurd hHidden hNone
        | homeless _ hError _ =>
            rw [hHome] at hError
            cases hError
        | nullCache _ hOk hNull =>
            rw [hHome] at hOk
            cases hOk
            exact .inl ⟨hNull, rfl⟩
        | looping _ hOk hNull hLoop =>
            rw [hHome] at hOk
            cases hOk
            exact .inr ⟨hNull, hLoop, rfl⟩

theorem trouble?_cache
    {value : Datum} :
    (Step.cache value).trouble? d root room = some error ↔
      (Step.cache value).Fails d root room error := by
  unfold Step.trouble? directoryOf textOf Datum.showing
  rw [errorOf?_eq_some_iff]
  cases hTrouble : value.trouble? room with
  | none => exact resolvePath_eq_error_iff hTrouble
  | some other =>
      have hHidden : ¬ Shows room value := by
        unfold Shows
        rw [hTrouble]
        exact nofun
      constructor
      · rintro ⟨⟩
        exact .hiddenCache hTrouble
      · intro hFails
        cases hFails with
        | hiddenCache hSame =>
            rw [hTrouble] at hSame
            cases hSame
            rfl
        | homeless hShown _ _ => exact absurd hShown hHidden
        | nullCache hShown _ _ => exact absurd hShown hHidden
        | looping hShown _ _ _ => exact absurd hShown hHidden

theorem trouble?_level
    {value : Datum} :
    (Step.level value).trouble? d root room = some error ↔
      (Step.level value).Fails d root room error := by
  unfold Step.trouble? levelOf textOf Datum.showing
  rw [errorOf?_eq_some_iff]
  cases hTrouble : value.trouble? room with
  | none =>
      refine ⟨nofun, fun hFails => ?_⟩
      cases hFails with
      | hiddenLevel hHidden =>
          rw [hTrouble] at hHidden
          cases hHidden
  | some other =>
      constructor
      · rintro ⟨⟩
        exact .hiddenLevel hTrouble
      · intro hFails
        cases hFails with
        | hiddenLevel hHidden =>
            rw [hTrouble] at hHidden
            cases hHidden
            rfl

/- The trouble of a step is the error it fails with. -/
theorem trouble?_eq_some_iff :
    step.trouble? d root room = some error ↔
      step.Fails d root room error := by
  cases step with
  | project path => exact trouble?_project
  | file path => exact trouble?_file
  | strings setting value => exact trouble?_strings
  | switch setting value => exact trouble?_switch
  | cache value => exact trouble?_cache
  | level value => exact trouble?_level

theorem trouble?_eq_none_iff :
    step.trouble? d root room = none ↔
      ∀ error, ¬ step.Fails d root room error := by
  simp only [← trouble?_eq_some_iff,
    Option.eq_none_iff_forall_ne_some, ne_eq]

/- The first trouble among the steps. -/
def troubleOf?
    (d : Disk)
    (root : String)
    (room : Nat)
    (steps : List Step) : Option Error :=
  steps.findSome? (Step.trouble? d root room)

/- The first trouble among steps is that of the first failure. -/
theorem troubleOf?_eq_some_iff
    {steps : List Step} :
    troubleOf? d root room steps = some error ↔
      FailsFirst d root room steps error := by
  unfold troubleOf? FailsFirst
  rw [List.findSome?_eq_some_iff]
  simp only [trouble?_eq_some_iff, trouble?_eq_none_iff]

end Settings

end SymbolAtlas

------------------------------------------------------------
-- Reading a Layer
------------------------------------------------------------

namespace SymbolAtlas

namespace Settings

variable {d : Disk} {root : String} {room : Nat} {table : Datum}
  {said : String → Option Datum}
  {step : String → Datum → Step}
  {env : List (String × String)}

theorem troubleOf?_cons
    (step : Step)
    (steps : List Step) :
    troubleOf? d root room (step :: steps) =
      (step.trouble? d root room).or (troubleOf? d root room steps) := by
  unfold troubleOf?
  rw [List.findSome?_cons]
  cases step.trouble? d root room with
  | none => rfl
  | some error => rfl

theorem troubleOf?_append
    (first second : List Step) :
    troubleOf? d root room (first ++ second) =
      (troubleOf? d root room first).or (troubleOf? d root room second) :=
  List.findSome?_append

theorem troubleOf?_stepsFor_nil :
    troubleOf? d root room (stepsFor said step []) = none :=
  rfl

/- A setting that is said can be the first trouble. -/
theorem troubleOf?_stepsFor_cons
    (name : String)
    (names : List String) :
    troubleOf? d root room (stepsFor said step (name :: names)) =
      ((said name).bind fun value =>
          (step name value).trouble? d root room).or
        (troubleOf? d root room (stepsFor said step names)) := by
  unfold stepsFor
  rw [List.flatMap_cons, troubleOf?_append]
  cases said name with
  | none => rfl
  | some value =>
      exact congrArg (Option.or · _)
        ((troubleOf?_cons _ []).trans Option.or_none)

theorem Decides.answers
    {α : Type}
    {well shown : Prop}
    {value : α}
    {result : Except Error α}
    (hDecides : Decides well shown value result) :
    Answers (errorOf? result) value result := by
  refine answers_errorOf? fun other hOther => ?_
  by_cases hBoth : well ∧ shown
  · rw [hDecides.ok hBoth.1 hBoth.2] at hOther
    cases hOther
    rfl
  · rcases hDecides.error hBoth with ⟨error, hError⟩
    rw [hError] at hOther
    cases hOther

/- The value of a setting, if it is said and can be read. -/
theorem answers_valueOf
    {α : Type}
    {setting : String}
    {read : Datum → Except Error α}
    {trouble : Datum → Option Error}
    {convert : Datum → α}
    (hRead :
      ∀ value,
        Answers (trouble value) (convert value) (read value)) :
    Answers ((table.field? setting).bind trouble)
      ((table.field? setting).map convert)
      (valueOf table setting read) := by
  unfold valueOf
  cases table.field? setting with
  | none => exact answers_ok none
  | some value => exact (hRead value).map some

variable (d root room)

theorem answers_textsIn
    (setting : String) :
    Answers
      ((table.field? setting).bind fun value =>
        (Step.strings setting value).trouble? d root room)
      ((table.field? setting).map texts)
      (textsIn table setting) :=
  answers_valueOf fun value =>
    (decides_textsOf setting value).answers

theorem answers_boolIn
    (setting : String) :
    Answers
      ((table.field? setting).bind fun value =>
        (Step.switch setting value).trouble? d root room)
      ((table.field? setting).map truth)
      (boolIn room table setting) :=
  answers_valueOf fun value =>
    (decides_boolOf setting value).answers

theorem answers_levelIn
    (setting : String) :
    Answers
      ((table.field? setting).bind fun value =>
        (Step.level value).trouble? d root room)
      ((table.field? setting).map level)
      (valueOf table setting (levelOf room)) :=
  answers_valueOf fun value => (decides_levelOf value).answers

theorem answers_cacheIn
    (setting : String) :
    Answers
      ((table.field? setting).bind fun value =>
        (Step.cache value).trouble? d root room)
      ((table.field? setting).map fun value =>
        placeOf d root value.asText)
      (valueOf table setting
        (directoryOf { projectDir := root } d room)) := by
  apply answers_valueOf
  intro value
  refine answers_errorOf? fun other hOther => ?_
  unfold directoryOf textOf Datum.showing at hOther
  rcases exists_ok_of_bind hOther with ⟨text, hText, hPath⟩
  have hSame : value.asText = text := by
    cases hTrouble : value.trouble? room with
    | none =>
        rw [hTrouble] at hText
        exact Except.ok.inj hText
    | some error =>
        rw [hTrouble] at hText
        cases hText
  unfold placeOf
  rw [hSame, hPath]
  rfl

variable {d root room}

/- A value that is good anyway is no trouble. -/
theorem answers_any
    {α : Type}
    {setting : String}
    (convert : Datum → α) :
    Answers none ((table.field? setting).map convert)
      (valueOf table setting fun value => .ok (convert value)) := by
  unfold valueOf
  cases table.field? setting with
  | none => exact answers_ok none
  | some value => exact answers_ok (some (convert value))

theorem answers_ofTable :
    Answers
      (troubleOf? d root room
        (stepsFor table.field? .strings listSettings ++
          stepsFor table.field? (fun _ => .cache) ["cache_dir"] ++
          stepsFor table.field? .switch switches ++
          stepsFor table.field? (fun _ => .level) ["log_level"]))
      (fileLayer (placeOf d root) table)
      (Layer.ofTable { projectDir := root } d room table) := by
  apply Answers.congr
  case hAnswers =>
    exact
      (answers_textsIn d root room "roots").bind <|
      (answers_textsIn d root room "files").bind <|
      (answers_textsIn d root room "accept").bind <|
      (answers_textsIn d root room "ignore").bind <|
      (answers_textsIn d root room "exclude").bind <|
      (answers_cacheIn d root room "cache_dir").bind <|
      (answers_boolIn d root room "auto_rebuild").bind <|
      (answers_boolIn d root room "report_parse_errors").bind <|
      (answers_boolIn d root room "ignore_unreadable_dirs").bind <|
      (answers_levelIn d root room "log_level").bind <|
      answers_ok _
  case hSame =>
    unfold listSettings switches
    simp only [troubleOf?_append, troubleOf?_stepsFor_cons,
      troubleOf?_stepsFor_nil, Option.or_assoc, Option.or_none]

theorem answers_ofVariables
    (hEnv : (env.map Prod.fst).Nodup) :
    Answers (troubleOf? d root room (stepsOfVariables env))
      (variableLayer (placeOf d root) env)
      (Layer.ofVariables { projectDir := root } d room env) := by
  apply Answers.congr
  case hAnswers =>
    unfold variableLayer
    simp only [← field?_variableTable hEnv]
    exact
      (answers_any pieces).bind <|
      (answers_cacheIn d root room _).bind <|
      (answers_boolIn d root room _).bind <|
      (answers_boolIn d root room _).bind <|
      (answers_levelIn d root room _).bind <|
      answers_ok _
  case hSame =>
    unfold stepsOfVariables switchVariables
    simp only [troubleOf?_append, troubleOf?_stepsFor_cons,
      troubleOf?_stepsFor_nil, Option.or_none, Option.none_or,
      Option.or_assoc, field?_variableTable hEnv]

end Settings

end SymbolAtlas

------------------------------------------------------------
-- Loading
------------------------------------------------------------

namespace SymbolAtlas

namespace Desk

variable {α β : Type} {first second : Option Error}
  {a : α} {b : β} {start middle final : Desk}

/- The desk after some more was told. -/
def telling (desk : Desk) (notices : List Notice) : Desk :=
  { desk with notices := desk.notices ++ notices }

@[simp] theorem disk_telling
    (desk : Desk)
    (notices : List Notice) :
    (desk.telling notices).disk = desk.disk :=
  rfl

@[simp] theorem telling_nil
    (desk : Desk) :
    desk.telling [] = desk := by
  unfold telling
  rw [List.append_nil]

@[simp] theorem telling_telling
    (desk : Desk)
    (first second : List Notice) :
    (desk.telling first).telling second =
      desk.telling (first ++ second) := by
  unfold telling
  rw [List.append_assoc]

/-
  The work ends with the trouble if there is some, or else comes
  to the value and the end.
-/
structure Follows
    (trouble : Option Error)
    (start : Desk)
    (value : α)
    (final : Desk)
    (work : Work α) : Prop where
  ok : trouble = none → work start = .ok value final
  error :
    ∀ error, trouble = some error →
      ∃ state, work start = .error error state

theorem follows_of_ok
    {work : Work α}
    (hWork : work start = .ok a final) :
    Follows none start a final work :=
  ⟨fun _ => hWork, nofun⟩

theorem follows_of_error
    {work : Work α}
    {error : Error}
    (hWork : work start = .error error middle) :
    Follows (some error) start a final work where
  ok := nofun
  error := by
    rintro other ⟨⟩
    exact ⟨middle, hWork⟩

theorem Follows.bind
    {work : Work α}
    {next : α → Work β}
    (hWork : Follows first start a middle work)
    (hNext : Follows second middle b final (next a)) :
    Follows (first.or second) start b final (work >>= next) := by
  cases first with
  | none =>
      rw [Option.none_or]
      refine ⟨fun hNone => ?_, fun error hError => ?_⟩
      · rw [Work.bind_of_ok (hWork.ok rfl)]
        exact hNext.ok hNone
      · rw [Work.bind_of_ok (hWork.ok rfl)]
        exact hNext.error error hError
  | some error =>
      rcases hWork.error error rfl with ⟨state, hError⟩
      exact follows_of_error (Work.bind_of_error hError)

theorem Follows.congr
    {work : Work α}
    (hFollows : Follows first start a final work)
    (hSame : first = second) :
    Follows second start a final work :=
  hSame ▸ hFollows

theorem Follows.of_eq
    {work other : Work α}
    (hFollows : Follows first start a final other)
    (hSame : work start = other start) :
    Follows first start a final work where
  ok hNone := hSame.trans (hFollows.ok hNone)
  error error hError := by
    rw [hSame]
    exact hFollows.error error hError

theorem follows_liftError
    {result : Except Error α}
    (hAnswers : Answers first a result)
    (start : Desk) :
    Follows first start a start (liftError result) := by
  cases first with
  | none =>
      rw [hAnswers.ok rfl]
      exact follows_of_ok rfl
  | some error =>
      rw [hAnswers.error error rfl]
      exact follows_of_error rfl

end Desk

namespace Settings

variable {root project : String} {room : Nat}
  {env : List (String × String)} {desk : Desk}

/- What cannot be shown is an error, and is not told. -/
theorem follows_tell
    (notice : Notice) :
    Desk.Follows (errorOf? notice.check) desk ()
      (desk.telling [notice]) (Desk.tell notice) := by
  unfold Desk.tell
  cases notice.check with
  | ok value => exact Desk.follows_of_ok rfl
  | error error => exact Desk.follows_of_error rfl

/- What becomes of a file of settings. -/
def Found.reported (path : String) : Found → Desk.Work Datum
| .missing => pure (.record [])
| .noText => throw .notUtf8
| .malformed complaint => do
    Desk.tell (.settingsIgnored path complaint.text)
    return .record []
| .wellFormed table => pure table

theorem Found.follows_reported
    (file : Found)
    (path : String) :
    Desk.Follows (file.trouble? path) desk file.said
      (desk.telling (file.warnings path)) (file.reported path) := by
  unfold trouble? said warnings reported
  cases file with
  | missing =>
      dsimp only
      rw [Desk.telling_nil]
      exact Desk.follows_of_ok rfl
  | noText => exact Desk.follows_of_error rfl
  | malformed complaint =>
      -- Telling is the trouble, and an empty table is none.
      dsimp only
      rw [← Option.or_none (o := errorOf? _)]
      exact (follows_tell _).bind (Desk.follows_of_ok rfl)
  | wellFormed table =>
      dsimp only
      rw [Desk.telling_nil]
      exact Desk.follows_of_ok rfl

theorem tableAt_eq
    (path : String) :
    tableAt path desk =
      (found desk.disk path).reported path desk := by
  unfold tableAt found
  rw [Work.bind_of_ok (Work.get_eq desk)]
  cases desk.disk.read path with
  | error fault => rfl
  | ok content =>
      dsimp only
      cases String.fromUTF8? content with
      | none => rfl
      | some text =>
          dsimp only
          cases Toml.parse text with
          | ok table => rfl
          | error complaint => rfl

/- Only a file that is not well formed is told about. -/
theorem follows_tableAt
    (desk : Desk)
    (root : String)
    (room : Nat)
    (path : String) :
    Desk.Follows ((Step.file path).trouble? desk.disk root room)
      desk
      (tableIn desk.disk path)
      (desk.telling (warningsAt desk.disk path))
      (tableAt path) :=
  ((found desk.disk path).follows_reported path).of_eq
    (tableAt_eq path)

theorem follows_layerAt
    (desk : Desk)
    (root : String)
    (room : Nat)
    (path : String) :
    Desk.Follows
      (troubleOf? desk.disk root room (stepsOfFile desk.disk path))
      desk
      (fileLayer (placeOf desk.disk root) (tableIn desk.disk path))
      (desk.telling (warningsAt desk.disk path))
      (layerAt { projectDir := root } room path) := by
  unfold stepsOfFile layerAt
  rw [troubleOf?_cons]
  refine (follows_tableAt desk root room path).bind ?_
  have hGet := Desk.follows_of_ok (Work.get_eq
    (desk.telling (warningsAt desk.disk path)))
  refine hGet.bind ?_
  rw [Desk.disk_telling]
  exact Desk.follows_liftError answers_ofTable _

/-
  The settings are put together from all layers, unless there is
  trouble on the way.
-/
theorem follows_load
    (desk : Desk)
    (room : Nat)
    (project : String)
    (hEnv : (env.map Prod.fst).Nodup) :
    Desk.Follows
      (troubleOf? desk.disk (rootOf desk.disk project) room
        (stepsOf desk.disk project env))
      desk (settingsOf desk.disk project env)
      (desk.telling (toldOf desk.disk project))
      (loadWithin room project env) := by
  have hRoot :
      Answers (errorOf? (desk.disk.realPath project))
        (rootOf desk.disk project)
        (desk.disk.realPath project) := by
    refine answers_errorOf? fun other hOther => ?_
    unfold rootOf
    rw [hOther]
    rfl
  -- The second file is read where the first has been told about,
  -- but on the same disk, so its steps are those of the start.
  have hUser :=
    follows_layerAt desk (rootOf desk.disk project) room
      (userFile desk.disk)
  have hOwn :=
    follows_layerAt
      (desk.telling (warningsAt desk.disk (userFile desk.disk)))
      (rootOf desk.disk project) room (projectFile project)
  rw [Desk.telling_telling, Desk.disk_telling] at hOwn
  unfold settingsOf
  rw [← onto_eq_merged]
  apply Desk.Follows.congr
  case hFollows =>
    exact
      (Desk.follows_of_ok (Work.get_eq desk)).bind <|
      (Desk.follows_liftError hRoot desk).bind <|
      hUser.bind <|
      hOwn.bind <|
      (Desk.follows_liftError (answers_ofVariables hEnv) _).bind <|
      Desk.follows_of_ok rfl
  case hSame =>
    unfold stepsOf
    rw [troubleOf?_cons]
    simp only [troubleOf?_append, Option.or_assoc, Option.or_none,
      Option.none_or, Step.trouble?]

/- Only a value of some kind is an error of the settings. -/
theorem family_iff_isValue
    {d : Disk}
    {step : Step}
    {error : Error}
    (hFails : step.Fails d root room error) :
    error.family = .settings ↔ step.IsValue room := by
  have hForeign {value : Datum} {other : Error}
      (hHidden : value.trouble? room = some other) :
      other.family ≠ .settings :=
    Datum.family_of_trouble? hHidden
  cases hFails with
  | nullProject _ => exact ⟨nofun, nofun⟩
  | unfound _ _ => exact ⟨nofun, nofun⟩
  | unread _ => exact ⟨nofun, nofun⟩
  | unshown _ hShown =>
      refine ⟨fun hFamily => ?_, nofun⟩
      rw [Markup.misworded_plain _ _ hShown] at hFamily
      cases hFamily
  | strings _ => exact ⟨fun _ => trivial, fun _ => rfl⟩
  | switch _ hShown => exact ⟨fun _ => hShown, fun _ => rfl⟩
  | hiddenSwitch _ hHidden =>
      refine ⟨fun hFamily => absurd hFamily (hForeign hHidden), ?_⟩
      intro hShown
      rw [show _ = none from hShown] at hHidden
      cases hHidden
  | hiddenCache hHidden =>
      exact ⟨fun hFamily => absurd hFamily (hForeign hHidden), nofun⟩
  | homeless _ _ hKind =>
      rcases hKind with rfl | rfl
      · exact ⟨nofun, nofun⟩
      · exact ⟨nofun, nofun⟩
  | nullCache _ _ _ => exact ⟨nofun, nofun⟩
  | looping _ _ _ _ => exact ⟨nofun, nofun⟩
  | hiddenLevel hHidden =>
      exact ⟨fun hFamily => absurd hFamily (hForeign hHidden), nofun⟩

/-
  Loading ends with the error of the first step that fails. If
  none does, it ends with the settings that all layers make, and
  has told of the files that are not well formed and say nothing.
  A failure is one of the settings only at a value of a setting
  that is of the wrong kind and can be shown.
-/
theorem load_ends_at_first_failure
    (hEnv : (env.map Prod.fst).Nodup) :
    (∀ error,
      (∃ state,
        loadWithin room project env desk = .error error state) ↔
        FailsFirst desk.disk (rootOf desk.disk project) room
          (stepsOf desk.disk project env) error) ∧
      ((∀ step ∈ stepsOf desk.disk project env, ∀ error,
          ¬ step.Fails desk.disk (rootOf desk.disk project) room
            error) →
        loadWithin room project env desk =
          .ok (settingsOf desk.disk project env)
            (desk.telling (toldOf desk.disk project))) ∧
      ∀ (step : Step) (error : Error),
        step.Fails desk.disk (rootOf desk.disk project) room
            error →
          (error.family = .settings ↔ step.IsValue room) := by
  have hLoad := follows_load desk room project hEnv
  refine ⟨fun error => ⟨?_, fun hFirst => ?_⟩, fun hNone => ?_,
    fun _ _ => family_iff_isValue⟩
  · rintro ⟨state, hError⟩
    apply troubleOf?_eq_some_iff.mp
    cases hTrouble :
        troubleOf? desk.disk (rootOf desk.disk project) room
          (stepsOf desk.disk project env) with
    | none =>
        rw [hLoad.ok hTrouble] at hError
        cases hError
    | some other =>
        rcases hLoad.error other hTrouble with ⟨last, hOther⟩
        rw [hOther] at hError
        cases hError
        rfl
  · exact hLoad.error error (troubleOf?_eq_some_iff.mpr hFirst)
  · apply hLoad.ok
    refine List.findSome?_eq_none_iff.mpr fun step hStep => ?_
    exact trouble?_eq_none_iff.mpr (hNone step hStep)

/- A file of a project that is not UTF-8 throughout. -/
def misencoded : Desk where
  disk := {
    nodes := [
      (["w"], .newDirectory),
      (["w", ".classmap"], .newDirectory),
      (["w", ".classmap", "config.toml"],
        .file ⟨#[0x61, 0x3d, 0x27, 0xff, 0x27]⟩ 1000)]
    cwd := ["w"]
    home := "/h" }

/- A variable that is wrong as well, but only read later. -/
def unsure : List (String × String) :=
  [("CLASSMAP_AUTO_REBUILD", "perhaps")]

theorem misencoded_file_ends_loading :
    ∃ state,
      loadWithin Datum.usualRoom "/w" unsure misencoded =
        .error .notUtf8 state := by
  have hFiles :
      (match found misencoded.disk (userFile misencoded.disk),
          found misencoded.disk (projectFile "/w") with
        | .missing, .noText => true
        | _, _ => false) = true := by
    decide +kernel
  have hProject :
      (misencoded.disk.realPath "/w").toOption = some "/w" := by
    decide +kernel
  have hEnv : (unsure.map Prod.fst).Nodup := by decide
  rw [Work.toOption_eq_some_iff] at hProject
  split at hFiles
  · next hUser hOwn =>
      have hSteps :
          stepsOf misencoded.disk "/w" unsure =
            [.project "/w", .file (userFile misencoded.disk)] ++
              .file (projectFile "/w") ::
                stepsOfVariables unsure := by
        unfold stepsOf stepsOfFile tableIn
        rw [hUser, hOwn]
        rfl
      apply ((load_ends_at_first_failure hEnv).1 .notUtf8).mpr
      refine ⟨_, _, _, hSteps, .unread hOwn, ?_⟩
      intro earlier hEarlier
      apply trouble?_eq_none_iff.mp
      rcases List.mem_pair.mp hEarlier with rfl | rfl
      · unfold Step.trouble?
        dsimp only
        rw [hProject]
        rfl
      · unfold Step.trouble?
        dsimp only
        rw [hUser]
        rfl
  · cases hFiles

end Settings

end SymbolAtlas
