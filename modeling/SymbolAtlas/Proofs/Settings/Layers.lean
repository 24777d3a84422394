import SymbolAtlas.Proofs.Attempts
import SymbolAtlas.Proofs.Data.Showing
import SymbolAtlas.Proofs.Work
import SymbolAtlas.Settings.Load

/-
  How the layers of the settings come together.

  Every layer is read in whole, so a value that is no good is an
  error even if a higher layer has the last word. If all values
  are good, each setting is the one of the highest layer that
  says it: a variable that is not empty, then the project's file,
  then the user's. Some values have to be shown, because they are
  told of or stand for a text. One that cannot be shown is an
  error too, but none of the settings.

  Key definitions:
    * `Settings.IsTexts`, `Settings.IsTruth`
    * `Settings.IsFaulty`, `Settings.IsUnshown`
    * `Settings.merged`
  Key theorems:
    * `Settings.decides_ofTable`, `Settings.decides_ofVariables`
    * `Settings.load_merges_layers`
-/

------------------------------------------------------------
-- Values
------------------------------------------------------------

namespace SymbolAtlas

namespace Settings

/- A text or a list of texts. -/
def IsTexts (value : Datum) : Prop :=
  (∃ s, value = .text s) ∨
    ∃ list : List String, value = .list (list.map .text)

/- The texts of such a value. -/
def texts : Datum → List String
| .text s => [s]
| .list items => items.filterMap textOf?
| _ => []

/- A text in small letters without the blanks around it. -/
def word (text : String) : String :=
  String.ofList ((Blank.trim text.toList).map Char.toLower)

/- A truth value, or one of the eight words for one. -/
def IsTruth (value : Datum) : Prop :=
  (∃ b, value = .bool b) ∨
    ∃ s, value = .text s ∧ word s ∈ yesWords ++ noWords

/- The truth value of such a value. -/
def truth : Datum → Bool
| .bool b => b
| .text s => yesWords.contains (word s)
| _ => false

/- There is nothing that keeps the value from being shown. -/
def Shows (room : Nat) (value : Datum) : Prop :=
  value.trouble? room = none

/-
  The result is the value if all is well and shown, and an error
  if not. It is an error of the settings if all is shown, and
  never is one if all is well.
-/
structure Decides
    {α : Type}
    (well shown : Prop)
    (value : α)
    (result : Except Error α) : Prop where
  ok : well → shown → result = .ok value
  error : ¬ (well ∧ shown) → ∃ error, result = .error error
  family :
    shown →
      ∀ error, result = .error error → error.family = .settings
  foreign :
    well →
      ∀ error, result = .error error → error.family ≠ .settings

theorem mapM_textOf?_map
    (list : List String) :
    (list.map Datum.text).mapM textOf? = some list := by
  induction list with
  | nil => rfl
  | cons s rest ih =>
      rw [List.map_cons, List.mapM_cons, ih]
      rfl

/- What can be read as texts is made of them. -/
theorem eq_map_of_mapM_textOf?
    {items : List Datum}
    {list : List String}
    (hRead : items.mapM textOf? = some list) :
    items = list.map .text := by
  induction items generalizing list with
  | nil =>
      cases hRead
      rfl
  | cons item rest ih =>
      rw [List.mapM_cons] at hRead
      rcases Option.bind_eq_some_iff.mp hRead with ⟨s, hItem, hMore⟩
      rcases Option.bind_eq_some_iff.mp hMore with
        ⟨others, hOthers, hList⟩
      cases hList
      rw [List.map_cons, ih hOthers]
      cases item <;> cases hItem
      rfl

theorem textsOf_of_isTexts
    {value : Datum}
    (hTexts : IsTexts value)
    (setting : String) :
    textsOf setting value = .ok (texts value) := by
  rcases hTexts with ⟨s, rfl⟩ | ⟨list, rfl⟩
  · rfl
  · unfold textsOf texts
    dsimp only
    rw [mapM_textOf?_map, List.filterMap_map]
    exact congrArg Except.ok List.filterMap_some.symm

theorem failsWith_textsOf
    (setting : String)
    (value : Datum) :
    FailsWith (· = .notStrings setting)
      (textsOf setting value) := by
  unfold textsOf
  split
  · exact failsWith_ok _
  · split
    · exact failsWith_ok _
    · exact failsWith_error rfl
  · exact failsWith_error rfl

theorem decides_textsOf
    (setting : String)
    (value : Datum) :
    Decides (IsTexts value) True (texts value)
      (textsOf setting value) where
  ok hTexts _ := textsOf_of_isTexts hTexts setting
  error hNot := by
    rw [and_true] at hNot
    refine ⟨.notStrings setting, ?_⟩
    unfold textsOf
    split
    · next s => exact absurd (.inl ⟨s, rfl⟩) hNot
    · next items =>
        split
        · next list hRead =>
            rw [eq_map_of_mapM_textOf? hRead] at hNot
            exact absurd (.inr ⟨list, rfl⟩) hNot
        · rfl
    · rfl
  family _ error hError := by
    rw [failsWith_textsOf setting value error hError]
    rfl
  foreign hTexts error hError := by
    rw [textsOf_of_isTexts hTexts] at hError
    cases hError

/- The words for yes and no are known apart. -/
theorem wordOf?_eq
    (text : String) :
    wordOf? text =
      if word text ∈ yesWords ++ noWords then
        some (yesWords.contains (word text))
      else none := by
  unfold wordOf?
  change (if yesWords.contains (word text) then some true
    else if noWords.contains (word text) then some false
    else none) = _
  by_cases hYes : word text ∈ yesWords
  · simp [hYes]
  · by_cases hNo : word text ∈ noWords
    · simp [hYes, hNo]
    · simp [hYes, hNo]

/- What is no truth value is refused. -/
theorem boolOf_of_not_isTruth
    {value : Datum}
    (hNot : ¬ IsTruth value)
    (setting : String)
    (room : Nat) :
    boolOf setting room value = refusal setting room value := by
  unfold boolOf
  split
  · next b => exact absurd (.inl ⟨b, rfl⟩) hNot
  · next s =>
      have hWord : word s ∉ yesWords ++ noWords :=
        fun hMem => hNot (.inr ⟨s, rfl, hMem⟩)
      rw [wordOf?_eq, if_neg hWord]
  · rfl

theorem boolOf_of_isTruth
    {value : Datum}
    (hTruth : IsTruth value)
    (setting : String)
    (room : Nat) :
    boolOf setting room value = .ok (truth value) := by
  rcases hTruth with ⟨b, rfl⟩ | ⟨s, rfl, hWord⟩
  · rfl
  · unfold boolOf truth
    dsimp only
    rw [wordOf?_eq, if_pos hWord]

/- A refusal needs the value to be shown. -/
theorem refusal_eq
    (setting : String)
    (room : Nat)
    (value : Datum) :
    refusal setting room value =
      .error ((value.trouble? room).getD
        (.notBoolean setting value.shown)) := by
  unfold refusal Datum.showing
  cases value.trouble? room with
  | none => rfl
  | some error => rfl

variable {room : Nat}

theorem decides_boolOf
    (setting : String)
    (value : Datum) :
    Decides (IsTruth value) (IsTruth value ∨ Shows room value)
      (truth value) (boolOf setting room value) where
  ok hTruth _ := boolOf_of_isTruth hTruth setting room
  error hNot := by
    have hTruth : ¬ IsTruth value :=
      fun hTruth => hNot ⟨hTruth, .inl hTruth⟩
    rw [boolOf_of_not_isTruth hTruth, refusal_eq]
    exact ⟨_, rfl⟩
  family hShown error hError := by
    by_cases hTruth : IsTruth value
    · rw [boolOf_of_isTruth hTruth] at hError
      cases hError
    · have hNone : value.trouble? room = none :=
        hShown.resolve_left hTruth
      rw [boolOf_of_not_isTruth hTruth, refusal_eq, hNone] at hError
      cases hError
      rfl
  foreign hTruth error hError := by
    rw [boolOf_of_isTruth hTruth] at hError
    cases hError

/- A setting in large letters. -/
def level (value : Datum) : String :=
  Upper.ofText value.asText

theorem decides_levelOf
    (value : Datum) :
    Decides True (Shows room value) (level value)
      (levelOf room value) := by
  unfold levelOf textOf Datum.showing Shows
  cases hTrouble : value.trouble? room with
  | none =>
      refine ⟨fun _ _ => rfl, fun hNot => ?_, nofun, nofun⟩
      exact absurd ⟨trivial, rfl⟩ hNot
  | some error =>
      refine ⟨nofun, fun _ => ⟨error, rfl⟩, nofun, ?_⟩
      rintro - other ⟨⟩
      exact Datum.family_of_trouble? hTrouble

end Settings

end SymbolAtlas

------------------------------------------------------------
-- Reading a Layer
------------------------------------------------------------

namespace SymbolAtlas

namespace Settings

section Sequences

variable {α β : Type} {P Q S T : Prop} {a : α} {b : β}

theorem decides_ok
    (a : α) :
    Decides True True a (.ok a) :=
  ⟨fun _ _ => rfl, fun hNot => absurd ⟨trivial, trivial⟩ hNot,
    nofun, nofun⟩

/- All must be well and shown in both parts. -/
theorem Decides.bind
    {first : Except Error α}
    {next : α → Except Error β}
    (hFirst : Decides P S a first)
    (hNext : Decides Q T b (next a)) :
    Decides (P ∧ Q) (S ∧ T) b (first >>= next) where
  ok hWell hShown := by
    rw [hFirst.ok hWell.1 hShown.1]
    exact hNext.ok hWell.2 hShown.2
  error hNot := by
    by_cases hBoth : P ∧ S
    · rw [hFirst.ok hBoth.1 hBoth.2]
      apply hNext.error
      rintro ⟨hQ, hT⟩
      exact hNot ⟨⟨hBoth.1, hQ⟩, hBoth.2, hT⟩
    · rcases hFirst.error hBoth with ⟨error, hError⟩
      rw [hError]
      exact ⟨error, rfl⟩
  family hShown error hError := by
    by_cases hP : P
    · rw [hFirst.ok hP hShown.1] at hError
      exact hNext.family hShown.2 error hError
    · rcases hFirst.error fun hBoth => hP hBoth.1 with
        ⟨other, hOther⟩
      rw [hOther] at hError
      cases hError
      exact hFirst.family hShown.1 error hOther
  foreign hWell error hError := by
    by_cases hS : S
    · rw [hFirst.ok hWell.1 hS] at hError
      exact hNext.foreign hWell.2 error hError
    · rcases hFirst.error fun hBoth => hS hBoth.2 with
        ⟨other, hOther⟩
      rw [hOther] at hError
      cases hError
      exact hFirst.foreign hWell.1 error hOther

theorem Decides.congr
    {result : Except Error α}
    (hDecides : Decides P S a result)
    (hWell : P ↔ Q)
    (hShown : S ↔ T) :
    Decides Q T a result := by
  rw [← propext hWell, ← propext hShown]
  exact hDecides

/- The value of a setting decides if it is there. -/
theorem decides_valueOf
    {table : Datum}
    {setting : String}
    {read : Datum → Except Error α}
    {good shown : Datum → Prop}
    {convert : Datum → α}
    (hRead :
      ∀ value, table.field? setting = some value →
        Decides (good value) (shown value) (convert value)
          (read value)) :
    Decides
      (∀ value, table.field? setting = some value → good value)
      (∀ value, table.field? setting = some value → shown value)
      ((table.field? setting).map convert)
      (valueOf table setting read) := by
  unfold valueOf
  cases hField : table.field? setting with
  | none => exact (decides_ok none).congr (by simp) (by simp)
  | some value =>
      have hValue := hRead value hField
      dsimp only
      have hResult {error : Error}
          (hError : (read value).map some = .error error) :
          read value = .error error := by
        cases hResult : read value with
        | ok found =>
            rw [hResult] at hError
            cases hError
        | error other =>
            rw [hResult] at hError
            cases hError
            rfl
      refine ⟨fun hGood hShown => ?_, fun hNot => ?_,
        fun hShown error hError => ?_,
        fun hGood error hError => ?_⟩
      · rw [hValue.ok (hGood value rfl) (hShown value rfl)]
        rfl
      · rcases hValue.error fun hBoth => hNot (by
            constructor
            · rintro other ⟨⟩
              exact hBoth.1
            · rintro other ⟨⟩
              exact hBoth.2) with
          ⟨error, hError⟩
        rw [hError]
        exact ⟨error, rfl⟩
      · exact hValue.family (hShown value rfl) error
          (hResult hError)
      · exact hValue.foreign (hGood value rfl) error
          (hResult hError)

end Sequences

/- The settings that hold texts. -/
def listSettings : List String :=
  ["roots", "files", "accept", "ignore", "exclude"]

/- The settings that are on or off. -/
def switches : List String :=
  ["auto_rebuild", "report_parse_errors", "ignore_unreadable_dirs"]

/- A layer says something that is no good for a setting. -/
def IsFaulty
    (said : String → Option Datum)
    (lists truths : List String) : Prop :=
  (∃ setting ∈ lists, ∃ value,
    said setting = some value ∧ ¬ IsTexts value) ∨
  ∃ setting ∈ truths, ∃ value,
    said setting = some value ∧ ¬ IsTruth value

theorem not_isFaulty_iff
    {said : String → Option Datum}
    {lists truths : List String} :
    ¬ IsFaulty said lists truths ↔
      (∀ setting ∈ lists, ∀ value,
        said setting = some value → IsTexts value) ∧
      ∀ setting ∈ truths, ∀ value,
        said setting = some value → IsTruth value := by
  unfold IsFaulty
  simp only [not_or, not_exists, not_and,
    Classical.not_not]

/-
  A layer says something that cannot be shown but has to be: no
  truth value where one is read, or a value that gives a text.
-/
def IsUnshown
    (room : Nat)
    (said : String → Option Datum)
    (truths texts : List String) : Prop :=
  (∃ setting ∈ truths, ∃ value,
    said setting = some value ∧
      ¬ IsTruth value ∧ ¬ Shows room value) ∨
  ∃ setting ∈ texts, ∃ value,
    said setting = some value ∧ ¬ Shows room value

theorem not_isUnshown_iff
    {room : Nat}
    {said : String → Option Datum}
    {truths texts : List String} :
    ¬ IsUnshown room said truths texts ↔
      (∀ setting ∈ truths, ∀ value,
        said setting = some value →
          IsTruth value ∨ Shows room value) ∧
      ∀ setting ∈ texts, ∀ value,
        said setting = some value → Shows room value := by
  have hOr (value : Datum) :
      IsTruth value ∨ Shows room value ↔
        (¬ IsTruth value → Shows room value) :=
    Classical.or_iff_not_imp_left
  unfold IsUnshown
  simp only [not_or, not_exists, not_and, Classical.not_not, hOr]

/- The parts of a text between colons, without the empty ones. -/
def pieces (value : Datum) : List String :=
  (value.asText.splitOn ":").filter (!·.isEmpty)

variable {s : Settings} {d : Disk} {place : String → String}
  {room : Nat}

/- What a file says, if it is read. -/
def fileLayer
    (place : String → String)
    (table : Datum) : Layer where
  roots := (table.field? "roots").map texts
  files := (table.field? "files").map texts
  accept := (table.field? "accept").map texts
  ignore := (table.field? "ignore").map texts
  exclude := (table.field? "exclude").map texts
  cacheDir := (table.field? "cache_dir").map
    fun value => place value.asText
  autoRebuild := (table.field? "auto_rebuild").map truth
  reportParseErrors :=
    (table.field? "report_parse_errors").map truth
  ignoreUnreadable :=
    (table.field? "ignore_unreadable_dirs").map truth
  logLevel := (table.field? "log_level").map level

theorem decides_textsIn
    (table : Datum)
    (setting : String) :
    Decides
      (∀ value, table.field? setting = some value → IsTexts value)
      True
      ((table.field? setting).map texts)
      (textsIn table setting) :=
  (decides_valueOf fun value _ =>
    decides_textsOf setting value).congr Iff.rfl (by simp)

theorem decides_boolIn
    (table : Datum)
    (setting : String) :
    Decides
      (∀ value, table.field? setting = some value → IsTruth value)
      (∀ value, table.field? setting = some value →
        IsTruth value ∨ Shows room value)
      ((table.field? setting).map truth)
      (boolIn room table setting) :=
  decides_valueOf fun value _ => decides_boolOf setting value

theorem decides_levelIn
    (table : Datum)
    (setting : String) :
    Decides True
      (∀ value, table.field? setting = some value →
        Shows room value)
      ((table.field? setting).map level)
      (valueOf table setting (levelOf room)) :=
  (decides_valueOf fun value _ =>
    decides_levelOf value).congr (by simp) Iff.rfl

/- A value that is good anyway is read. -/
theorem decides_any
    {α : Type}
    {table : Datum}
    {setting : String}
    {read : Datum → Except Error α}
    {convert : Datum → α}
    (hRead :
      ∀ value, table.field? setting = some value →
        read value = .ok (convert value)) :
    Decides True True ((table.field? setting).map convert)
      (valueOf table setting read) := by
  have hGood :
      Decides
        (∀ value, table.field? setting = some value → True)
        (∀ value, table.field? setting = some value → True)
        ((table.field? setting).map convert)
        (valueOf table setting read) := by
    apply decides_valueOf
    intro value hValue
    rw [hRead value hValue]
    exact decides_ok _
  exact hGood.congr (by simp) (by simp)

/- The settings that give a text, whatever they are. -/
def textSettings : List String :=
  ["log_level"]

theorem decides_ofTable
    {table : Datum}
    (hCache :
      ∀ value, table.field? "cache_dir" = some value →
        s.directoryOf d room value = .ok (place value.asText)) :
    Decides (¬ IsFaulty table.field? listSettings switches)
      (¬ IsUnshown room table.field? switches textSettings)
      (fileLayer place table) (Layer.ofTable s d room table) := by
  apply Decides.congr
  case hDecides =>
    exact
      (decides_textsIn table "roots").bind <|
      (decides_textsIn table "files").bind <|
      (decides_textsIn table "accept").bind <|
      (decides_textsIn table "ignore").bind <|
      (decides_textsIn table "exclude").bind <|
      (decides_any hCache).bind <|
      (decides_boolIn table "auto_rebuild").bind <|
      (decides_boolIn table "report_parse_errors").bind <|
      (decides_boolIn table "ignore_unreadable_dirs").bind <|
      (decides_levelIn table "log_level").bind <|
      decides_ok _
  case hWell =>
    rw [not_isFaulty_iff]
    unfold listSettings switches
    simp only [List.forall_mem_cons, List.not_mem_nil,
      false_implies, implies_true, and_true, true_and, and_assoc]
  case hShown =>
    rw [not_isUnshown_iff]
    unfold switches textSettings
    simp only [List.forall_mem_cons, List.not_mem_nil,
      false_implies, implies_true, and_true, true_and, and_assoc]

/- What a variable says, unless it is empty. -/
def variableValue?
    (env : List (String × String))
    (name : String) : Option Datum :=
  match env.lookup (variableName name) with
  | some value => if value.isEmpty then none else some (.text value)
  | none => none

/- A variable is a field of the table of those that are set. -/
theorem field?_variableTable
    {env : List (String × String)}
    (hEnv : (env.map Prod.fst).Nodup)
    (name : String) :
    (variableTable env).field? (variableName name) =
      variableValue? env name := by
  have hKeys :
      (((env.filter (!·.2.isEmpty)).map fun entry =>
        (entry.1, Datum.text entry.2)).map Prod.fst).Nodup := by
    rw [List.map_map]
    exact hEnv.sublist (List.filter_sublist.map Prod.fst)
  unfold variableTable Datum.field? Keyed.get? variableValue?
  dsimp only
  rw [Keyed.entries_ofList hKeys]
  clear hKeys
  induction env with
  | nil => rfl
  | cons entry rest ih =>
      obtain ⟨key, value⟩ := entry
      rw [List.map_cons, List.nodup_cons] at hEnv
      have hRest := ih hEnv.2
      rw [List.lookup_cons]
      by_cases hKey : variableName name = key
      · subst hKey
        rw [BEq.rfl]
        cases hEmpty : value.isEmpty with
        | true =>
            have hAbsent :
                rest.lookup (variableName name) = none := by
              rw [List.lookup_eq_none_iff]
              intro other hOther
              rw [bne_iff_ne]
              intro hSame
              exact hEnv.1
                (List.mem_map.mpr ⟨other, hOther, hSame.symm⟩)
            rw [hAbsent] at hRest
            rw [List.filter_cons_of_neg (by simp [hEmpty]), hRest]
            simp [hEmpty]
        | false =>
            rw [List.filter_cons_of_pos (by simp [hEmpty]),
              List.map_cons, Keyed.lookup, if_pos rfl]
            simp [hEmpty]
      · have hOther : (variableName name == key) = false := by
          simpa using hKey
        rw [hOther]
        dsimp only
        rw [← hRest]
        cases hEmpty : value.isEmpty with
        | true => rw [List.filter_cons_of_neg (by simp [hEmpty])]
        | false =>
            rw [List.filter_cons_of_pos (by simp [hEmpty]),
              List.map_cons, Keyed.lookup, if_neg hKey]

/- What the variables say, if they are read. -/
def variableLayer
    (place : String → String)
    (env : List (String × String)) : Layer where
  roots := (variableValue? env "ROOTS").map pieces
  cacheDir := (variableValue? env "CACHE_DIR").map
    fun value => place value.asText
  autoRebuild := (variableValue? env "AUTO_REBUILD").map truth
  reportParseErrors :=
    (variableValue? env "REPORT_PARSE_ERRORS").map truth
  logLevel := (variableValue? env "LOG_LEVEL").map level

/- The variables that are on or off. -/
def switchVariables : List String :=
  ["AUTO_REBUILD", "REPORT_PARSE_ERRORS"]

/- A variable is a text, which is shown in any room. -/
theorem shows_of_variableValue?
    {env : List (String × String)}
    {name : String}
    {value : Datum}
    (hValue : variableValue? env name = some value) :
    Shows room value := by
  unfold variableValue? at hValue
  split at hValue
  · split at hValue
    · cases hValue
    · cases hValue
      rfl
  · cases hValue

theorem decides_ofVariables
    {env : List (String × String)}
    (hEnv : (env.map Prod.fst).Nodup)
    (hCache :
      ∀ value, variableValue? env "CACHE_DIR" = some value →
        s.directoryOf d room value = .ok (place value.asText)) :
    Decides (¬ IsFaulty (variableValue? env) [] switchVariables)
      True (variableLayer place env)
      (Layer.ofVariables s d room env) := by
  apply Decides.congr
  case hDecides =>
    unfold variableLayer
    simp only [← field?_variableTable hEnv] at hCache ⊢
    exact
      (decides_any fun value _ => rfl).bind <|
      (decides_any hCache).bind <|
      (decides_boolIn _ _).bind <|
      (decides_boolIn _ _).bind <|
      (decides_levelIn _ _).bind <|
      decides_ok _
  case hWell =>
    rw [not_isFaulty_iff]
    unfold switchVariables
    simp only [field?_variableTable hEnv,
      List.forall_mem_cons, List.not_mem_nil,
      false_implies, implies_true, and_true, true_and]
  case hShown =>
    have hShows (name : String) (value : Datum)
        (hValue : variableValue? env name = some value) :
        Shows room value :=
      shows_of_variableValue? hValue
    simp only [field?_variableTable hEnv, iff_true, true_and,
      and_true]
    exact ⟨fun value hValue => .inr (hShows _ value hValue),
      fun value hValue => .inr (hShows _ value hValue),
      hShows _⟩

end Settings

end SymbolAtlas

------------------------------------------------------------
-- Layer Over Layer
------------------------------------------------------------

namespace SymbolAtlas

namespace Settings

variable {d : Disk} {root project : String}
  {env : List (String × String)} {own user : Datum}
  {place : String → String}

/- The value in the higher of the two files that says one. -/
def inFiles
    (own user : Datum)
    (setting : String) : Option Datum :=
  (own.field? setting).or (user.field? setting)

/-
  The settings of a project: each is the value of the highest
  layer that says it, as it is read there.
-/
def merged
    (root : String)
    (place : String → String)
    (env : List (String × String))
    (own user : Datum) : Settings where
  projectDir := root
  roots :=
    ((variableValue? env "ROOTS").map pieces).getD
      (((inFiles own user "roots").map texts).getD [])
  files := ((inFiles own user "files").map texts).getD []
  accept :=
    ((inFiles own user "accept").map texts).getD ["*.php"]
  ignore :=
    ((inFiles own user "ignore").map texts).getD
      [".*", "*.old", "*.bak", "*.tmp", "temp"]
  exclude := ((inFiles own user "exclude").map texts).getD []
  cacheDir :=
    ((variableValue? env "CACHE_DIR").or
      (inFiles own user "cache_dir")).map
        fun value => place value.asText
  autoRebuild :=
    (((variableValue? env "AUTO_REBUILD").or
      (inFiles own user "auto_rebuild")).map truth).getD true
  reportParseErrors :=
    (((variableValue? env "REPORT_PARSE_ERRORS").or
      (inFiles own user "report_parse_errors")).map truth).getD true
  ignoreUnreadable :=
    ((inFiles own user "ignore_unreadable_dirs").map truth).getD
      true
  logLevel :=
    (((variableValue? env "LOG_LEVEL").or
      (inFiles own user "log_level")).map level).getD "INFO"

/- Layers put over each other are the settings they make. -/
theorem onto_eq_merged :
    (variableLayer place env).onto
        ((fileLayer place own).onto
          ((fileLayer place user).onto { projectDir := root })) =
      merged root place env own user := by
  unfold merged inFiles variableLayer fileLayer Layer.onto
  simp only [Option.map_or, Option.getD_or, Option.or_none,
    Option.getD_none]

end Settings

end SymbolAtlas

------------------------------------------------------------
-- Loading
------------------------------------------------------------

namespace SymbolAtlas

namespace Desk

variable {α β : Type} {P Q S T : Prop} {a : α} {b : β}
  {start middle final : Desk}

/-
  The work comes to a value and an end if all is well and shown,
  and to an error if not. It is one of the settings if all is
  shown, and never is one if all is well.
-/
structure Settles
    (well shown : Prop)
    (start : Desk)
    (value : α)
    (final : Desk)
    (work : Work α) : Prop where
  ok : well → shown → work start = .ok value final
  error :
    ¬ (well ∧ shown) →
      ∃ error state, work start = .error error state
  family :
    shown →
      ∀ error state, work start = .error error state →
        error.family = .settings
  foreign :
    well →
      ∀ error state, work start = .error error state →
        error.family ≠ .settings

theorem settles_of_ok
    {work : Work α}
    (hWork : work start = .ok a final) :
    Settles True True start a final work := by
  refine ⟨fun _ _ => hWork,
    fun hNot => absurd ⟨trivial, trivial⟩ hNot, ?_, ?_⟩
  · intro _ error state hError
    rw [hWork] at hError
    cases hError
  · intro _ error state hError
    rw [hWork] at hError
    cases hError

theorem Settles.bind
    {first : Work α}
    {next : α → Work β}
    (hFirst : Settles P S start a middle first)
    (hNext : Settles Q T middle b final (next a)) :
    Settles (P ∧ Q) (S ∧ T) start b final (first >>= next) where
  ok hWell hShown := by
    rw [Work.bind_of_ok (hFirst.ok hWell.1 hShown.1)]
    exact hNext.ok hWell.2 hShown.2
  error hNot := by
    by_cases hBoth : P ∧ S
    · rw [Work.bind_of_ok (hFirst.ok hBoth.1 hBoth.2)]
      apply hNext.error
      rintro ⟨hQ, hT⟩
      exact hNot ⟨⟨hBoth.1, hQ⟩, hBoth.2, hT⟩
    · rcases hFirst.error hBoth with ⟨error, state, hError⟩
      rw [Work.bind_of_error hError]
      exact ⟨error, state, rfl⟩
  family hShown error state hError := by
    by_cases hP : P
    · rw [Work.bind_of_ok (hFirst.ok hP hShown.1)] at hError
      exact hNext.family hShown.2 error state hError
    · rcases hFirst.error fun hBoth => hP hBoth.1 with
        ⟨other, last, hOther⟩
      rw [Work.bind_of_error hOther] at hError
      cases hError
      exact hFirst.family hShown.1 error state hOther
  foreign hWell error state hError := by
    by_cases hS : S
    · rw [Work.bind_of_ok (hFirst.ok hWell.1 hS)] at hError
      exact hNext.foreign hWell.2 error state hError
    · rcases hFirst.error fun hBoth => hS hBoth.2 with
        ⟨other, last, hOther⟩
      rw [Work.bind_of_error hOther] at hError
      cases hError
      exact hFirst.foreign hWell.1 error state hOther

theorem Settles.congr
    {work : Work α}
    (hSettles : Settles P S start a final work)
    (hWell : P ↔ Q)
    (hShown : S ↔ T) :
    Settles Q T start a final work := by
  rw [← propext hWell, ← propext hShown]
  exact hSettles

theorem settles_liftError
    {result : Except Error α}
    (hDecides : Settings.Decides P S a result)
    (start : Desk) :
    Settles P S start a start (liftError result) where
  ok hP hS := by
    rw [hDecides.ok hP hS]
    rfl
  error hNot := by
    rcases hDecides.error hNot with ⟨error, hError⟩
    rw [hError]
    exact ⟨error, start, rfl⟩
  family hS error state hError := by
    cases result with
    | ok value => cases hError
    | error other =>
        cases hError
        exact hDecides.family hS error rfl
  foreign hP error state hError := by
    cases result with
    | ok value => cases hError
    | error other =>
        cases hError
        exact hDecides.foreign hP error rfl

end Desk

namespace Settings

variable {root project : String} {env : List (String × String)}
  {own user : Datum} {place : String → String} {room : Nat}
  {desk middle final : Desk}

/- Reading a file of settings leaves the disk as it is. -/
theorem disk_of_tableAt
    {path : String}
    {table : Datum}
    (hTable : tableAt path desk = .ok table final) :
    final.disk = desk.disk := by
  have hTell (notice : Notice) :
      Work.Keeps (fun state => state.disk = desk.disk)
        (Desk.tell notice) := by
    refine Work.Keeps.bind ?_ fun _ =>
      Work.keeps_modify fun _ hDisk => hDisk
    cases notice.check with
    | ok value => exact Work.keeps_pure value
    | error error => exact Work.keeps_throw error
  have hKeeps :
      Work.Keeps (fun state => state.disk = desk.disk)
        (tableAt path) := by
    unfold tableAt
    refine Work.Keeps.bind (fun _ hDisk => hDisk) fun state => ?_
    split
    · exact Work.keeps_pure _
    split
    · exact Work.keeps_throw _
    split
    · exact Work.keeps_pure _
    · exact (hTell _).bind fun _ => Work.keeps_pure _
  have hDisk := hKeeps desk rfl
  rw [hTable] at hDisk
  exact hDisk

theorem settles_layerAt
    {base : Settings}
    {path : String}
    {table : Datum}
    (hTable : tableAt path desk = .ok table final)
    (hCache :
      ∀ value, table.field? "cache_dir" = some value →
        base.directoryOf desk.disk room value =
          .ok (place value.asText)) :
    Desk.Settles (¬ IsFaulty table.field? listSettings switches)
      (¬ IsUnshown room table.field? switches textSettings)
      desk (fileLayer place table) final
      (layerAt base room path) := by
  rw [← disk_of_tableAt hTable] at hCache
  apply Desk.Settles.congr
  case hSettles =>
    exact
      (Desk.settles_of_ok hTable).bind <|
      (Desk.settles_of_ok (Work.get_eq final)).bind <|
      Desk.settles_liftError (decides_ofTable hCache) final
  case hWell => simp only [true_and]
  case hShown => simp only [true_and]

/- Some layer says what is no good, in the order of reading. -/
def AnyFaulty
    (env : List (String × String))
    (own user : Datum) : Prop :=
  IsFaulty user.field? listSettings switches ∨
    IsFaulty own.field? listSettings switches ∨
      IsFaulty (variableValue? env) [] switchVariables

/-
  Some file says what has to be shown and cannot be. Variables
  are texts, so they can always be shown.
-/
def AnyUnshown (room : Nat) (own user : Datum) : Prop :=
  IsUnshown room user.field? switches textSettings ∨
    IsUnshown room own.field? switches textSettings

/-
  Loading fails if a layer says what is no good, even if another
  one overrides it, or what has to be shown and cannot be. It
  only fails because of the settings if a layer says what is no
  good, and does so if all can be shown. If all is good too, all
  layers are put over each other.
-/
theorem load_merges_layers
    (hEnv : (env.map Prod.fst).Nodup)
    (hProject : desk.disk.realPath project = .ok root)
    (hUser :
      tableAt (userFile desk.disk) desk = .ok user middle)
    (hOwn : tableAt (projectFile project) middle = .ok own final)
    (hCache :
      ∀ value,
        (variableValue? env "CACHE_DIR" = some value ∨
          own.field? "cache_dir" = some value ∨
          user.field? "cache_dir" = some value) →
        directoryOf { projectDir := root } desk.disk room value =
          .ok (place value.asText)) :
    ((∃ error state,
        loadWithin room project env desk = .error error state) ↔
      AnyFaulty env own user ∨ AnyUnshown room own user) ∧
      ((∃ error state,
          loadWithin room project env desk = .error error state ∧
            error.family = .settings) →
        AnyFaulty env own user) ∧
      (AnyFaulty env own user →
        ¬ AnyUnshown room own user →
        ∃ error state,
          loadWithin room project env desk = .error error state ∧
            error.family = .settings) ∧
      (¬ AnyFaulty env own user →
        ¬ AnyUnshown room own user →
        loadWithin room project env desk =
          .ok (merged root place env own user) final) := by
  have hRoot :
      Decides True True root (desk.disk.realPath project) := by
    rw [hProject]
    exact decides_ok root
  have hOwnCache :
      ∀ value, own.field? "cache_dir" = some value →
        directoryOf { projectDir := root } middle.disk room value =
          .ok (place value.asText) := by
    rw [disk_of_tableAt hUser]
    exact fun value hValue => hCache value (.inr (.inl hValue))
  have hLoad :
      Desk.Settles (¬ AnyFaulty env own user)
        (¬ AnyUnshown room own user) desk
        (merged root place env own user) final
        (loadWithin room project env) := by
    rw [← onto_eq_merged]
    apply Desk.Settles.congr
    case hSettles =>
      exact
        (Desk.settles_of_ok (Work.get_eq desk)).bind <|
        (Desk.settles_liftError hRoot desk).bind <|
        (settles_layerAt hUser fun value hValue =>
          hCache value (.inr (.inr hValue))).bind <|
        (settles_layerAt hOwn hOwnCache).bind <|
        (Desk.settles_liftError
          (decides_ofVariables hEnv fun value hValue =>
            hCache value (.inl hValue)) final).bind <|
        Desk.settles_of_ok rfl
    case hWell =>
      unfold AnyFaulty
      simp only [not_or, true_and, and_true]
    case hShown =>
      unfold AnyUnshown
      simp only [not_or, true_and, and_true]
  have hFails :
      (∃ error state,
        loadWithin room project env desk = .error error state) ↔
      AnyFaulty env own user ∨ AnyUnshown room own user := by
    constructor
    · rintro ⟨error, state, hError⟩
      apply Classical.byContradiction
      intro hNone
      rw [not_or] at hNone
      rw [hLoad.ok hNone.1 hNone.2] at hError
      cases hError
    · intro hSome
      apply hLoad.error
      rw [← not_or]
      exact fun hNone => hNone hSome
  refine ⟨hFails, ?_, fun hFaulty hShown => ?_, hLoad.ok⟩
  · rintro ⟨error, state, hError, hFamily⟩
    apply Classical.byContradiction
    intro hWell
    exact hLoad.foreign hWell error state hError hFamily
  · rcases hFails.mpr (.inl hFaulty) with ⟨error, state, hError⟩
    exact ⟨error, state, hError,
      hLoad.family hShown error state hError⟩

/- A wrong value in the user's file, and a level of parts. -/
def overruled : Desk where
  disk := {
    nodes := [
      (["h"], .newDirectory),
      (["h", ".config"], .newDirectory),
      (["h", ".config", "classmap"], .newDirectory),
      (["h", ".config", "classmap", "config.toml"],
        .file "roots = 5\ncache_dir = 'c'".toUTF8 1000),
      (["w"], .newDirectory),
      (["w", ".classmap"], .newDirectory),
      (["w", ".classmap", "config.toml"],
        .file "log_level = [1]".toUTF8 1000)]
    cwd := ["w"]
    home := "/h" }

/- The one directory for a cache that is spoken of. -/
def overruledCache (_ : String) : String :=
  "/w/c"

/- The user's roots are wrong, and only one file has a cache. -/
def rootsAreWrong (user own : Datum) : Bool :=
  match user.field? "roots", user.field? "cache_dir",
    own.field? "cache_dir" with
  | some (.int 5), some (.text "c"), none => true
  | _, _, _ => false

/- The level is a list, and no switch is spoken of. -/
def levelIsNested (user own : Datum) : Bool :=
  switches.all (fun name =>
      (user.field? name).isNone && (own.field? name).isNone) &&
    (user.field? "log_level").isNone &&
    match own.field? "log_level" with
    | some (.list [.int 1]) => true
    | _ => false

/- What the two files say. -/
theorem overruled_tables :
    ∃ user middle own final,
      tableAt (userFile overruled.disk) overruled =
        .ok user middle ∧
      tableAt (projectFile "/w") middle = .ok own final ∧
      rootsAreWrong user own = true ∧
      levelIsNested user own = true := by
  have hTables :
      (match tableAt (userFile overruled.disk) overruled with
        | .error _ _ => false
        | .ok user middle =>
            match tableAt (projectFile "/w") middle with
            | .error _ _ => false
            | .ok own _ =>
                rootsAreWrong user own && levelIsNested user own) =
        true := by
    decide +kernel
  split at hTables
  · cases hTables
  next user middle hUser =>
  split at hTables
  · cases hTables
  next own final hOwn =>
  rw [Bool.and_eq_true] at hTables
  exact ⟨user, middle, own, final, hUser, hOwn, hTables⟩

theorem faulty_of_rootsAreWrong
    (hRoots : rootsAreWrong user own = true) :
    AnyFaulty env own user := by
  unfold rootsAreWrong at hRoots
  split at hRoots
  · next hFive hCache hNone =>
      left
      left
      refine ⟨"roots", by decide, _, hFive, ?_⟩
      rintro (⟨s, hText⟩ | ⟨list, hList⟩)
      · cases hText
      · cases hList
  · cases hRoots

/- The one cache that a file names resolves. -/
theorem directoryOf_of_rootsAreWrong
    (hRoots : rootsAreWrong user own = true)
    (hNoVariable : variableValue? env "CACHE_DIR" = none)
    {value : Datum}
    (hValue :
      variableValue? env "CACHE_DIR" = some value ∨
        own.field? "cache_dir" = some value ∨
        user.field? "cache_dir" = some value) :
    directoryOf { projectDir := "/w" } overruled.disk room value =
      .ok (overruledCache value.asText) := by
  have hPath :
      (resolvePath { projectDir := "/w" } overruled.disk
        "c").toOption = some (overruledCache "c") := by
    decide +kernel
  unfold rootsAreWrong at hRoots
  split at hRoots
  · next hFive hCache hNone =>
      rw [hNoVariable, hNone, hCache] at hValue
      rcases hValue with hVariable | hOwnCache | hUserCache
      · cases hVariable
      · cases hOwnCache
      · cases hUserCache
        exact Work.toOption_eq_some_iff.mp hPath
  · cases hRoots

/- The level can be shown where there is room for one list. -/
theorem unshown_of_levelIsNested
    (hLevel : levelIsNested user own = true) :
    ¬ AnyUnshown 1 own user ∧ AnyUnshown 0 own user := by
  unfold levelIsNested at hLevel
  simp only [switches, List.all_cons, List.all_nil,
    Bool.and_true, Bool.and_eq_true, Option.isNone_iff_eq_none]
    at hLevel
  rcases hLevel with ⟨⟨hSwitches, hUserLevel⟩, hOwnLevel⟩
  have hList :
      own.field? "log_level" = some (.list [.int 1]) := by
    split at hOwnLevel
    · next hList => exact hList
    · cases hOwnLevel
  have hRoom : Shows 1 (.list [.int 1]) := rfl
  constructor
  · unfold AnyUnshown
    rw [not_or, not_isUnshown_iff, not_isUnshown_iff]
    simp [switches, textSettings, hSwitches, hUserLevel,
      hList, hRoom]
  · exact .inr (.inr ⟨"log_level", by decide, _, hList, nofun⟩)

/-
  The wrong roots are reported although a variable has others,
  if there is room to show the level. In any room loading fails.
-/
theorem overruled_roots_are_reported :
    (∃ error state,
      loadWithin 1 "/w" [("CLASSMAP_ROOTS", "a:b")] overruled =
          .error error state ∧
        error.family = .settings) ∧
      ∃ error state,
        loadWithin 0 "/w" [("CLASSMAP_ROOTS", "a:b")] overruled =
          .error error state := by
  have hProject :
      (overruled.disk.realPath "/w").toOption = some "/w" := by
    decide +kernel
  rw [Work.toOption_eq_some_iff] at hProject
  rcases overruled_tables with
    ⟨user, middle, own, final, hUser, hOwn, hRoots, hLevel⟩
  rcases unshown_of_levelIsNested hLevel with ⟨hShown, hHidden⟩
  have hPlaces (room : Nat) :
      ∀ value,
        (variableValue? [("CLASSMAP_ROOTS", "a:b")] "CACHE_DIR" =
            some value ∨
          own.field? "cache_dir" = some value ∨
          user.field? "cache_dir" = some value) →
        directoryOf { projectDir := "/w" } overruled.disk room
          value = .ok (overruledCache value.asText) :=
    fun _ hValue => directoryOf_of_rootsAreWrong hRoots rfl hValue
  have hLoad (room : Nat) :=
    load_merges_layers (by decide) hProject hUser hOwn
      (hPlaces room)
  exact ⟨(hLoad 1).2.2.1 (faulty_of_rootsAreWrong hRoots) hShown,
    (hLoad 0).1.mpr (.inr hHidden)⟩

end Settings

end SymbolAtlas
