import SymbolAtlas.Error

/-
  Laws of attempts, which have a value or an error.

  What the errors of an attempt have in common is told from its
  parts. Of attempts in a row the first that fails decides, so
  the trouble there may be can be told apart from the value.

  Key definitions:
    * `FailsWith`
    * `errorOf?`, `Answers`
  Key theorems:
    * `FailsWith.bind`, `FailsWith.map`
    * `failsWith_mapM`, `failsWith_foldlM`
    * `forM_eq_error_iff`
    * `Answers.bind`
-/

------------------------------------------------------------
-- What Errors Have in Common
------------------------------------------------------------

namespace SymbolAtlas

/- The attempt succeeds, or its error has the property. -/
def FailsWith
    {α : Type}
    (P : Error → Prop)
    (result : Except Error α) : Prop :=
  ∀ error, result = .error error → P error

variable {α β : Type} {P Q : Error → Prop}

theorem failsWith_ok
    (value : α) :
    FailsWith P (.ok value) := by
  intro error hError
  cases hError

theorem failsWith_error
    {error : Error}
    (hProperty : P error) :
    FailsWith P (.error error : Except Error α) := by
  intro other hOther
  cases hOther
  exact hProperty

theorem failsWith_ite
    {p : Prop}
    [Decidable p]
    {first second : Except Error α}
    (hFirst : FailsWith P first)
    (hSecond : FailsWith P second) :
    FailsWith P (if p then first else second) := by
  split
  · exact hFirst
  · exact hSecond

theorem FailsWith.mono
    {result : Except Error α}
    (hResult : FailsWith P result)
    (hWeaker : ∀ error, P error → Q error) :
    FailsWith Q result :=
  fun error hError => hWeaker error (hResult error hError)

theorem FailsWith.bind
    {result : Except Error α}
    {next : α → Except Error β}
    (hResult : FailsWith P result)
    (hNext : ∀ value, FailsWith P (next value)) :
    FailsWith P (result >>= next) := by
  cases result with
  | error error => exact failsWith_error (hResult error rfl)
  | ok value => exact hNext value

theorem FailsWith.map
    {result : Except Error α}
    (hResult : FailsWith P result)
    (f : α → β) :
    FailsWith P (result.map f) := by
  cases result with
  | error error => exact failsWith_error (hResult error rfl)
  | ok value => exact failsWith_ok _

theorem failsWith_mapM
    {f : α → Except Error β}
    (hEach : ∀ item, FailsWith P (f item))
    (items : List α) :
    FailsWith P (items.mapM f) := by
  induction items with
  | nil => exact failsWith_ok _
  | cons item rest ih =>
      rw [List.mapM_cons]
      exact (hEach item).bind fun _ =>
        ih.bind fun _ => failsWith_ok _

theorem failsWith_foldlM
    {f : β → α → Except Error β}
    (hEach : ∀ state item, FailsWith P (f state item))
    (items : List α)
    (start : β) :
    FailsWith P (items.foldlM f start) := by
  induction items generalizing start with
  | nil => exact failsWith_ok _
  | cons item rest ih =>
      rw [List.foldlM_cons]
      exact (hEach start item).bind ih

section Successes

variable {ε : Type}

/- A chain that succeeds does so in both parts. -/
theorem exists_ok_of_bind
    {result : Except ε α}
    {next : α → Except ε β}
    {value : β}
    (hOk : result.bind next = .ok value) :
    ∃ found, result = .ok found ∧ next found = .ok value := by
  cases result with
  | error error => cases hOk
  | ok found => exact ⟨found, rfl, hOk⟩

theorem exists_ok_of_map
    {result : Except ε α}
    {f : α → β}
    {value : β}
    (hOk : result.map f = .ok value) :
    ∃ found, result = .ok found ∧ f found = value := by
  cases result with
  | error error => cases hOk
  | ok found => exact ⟨found, rfl, Except.ok.inj hOk⟩

end Successes

end SymbolAtlas

------------------------------------------------------------
-- The First Trouble
------------------------------------------------------------

namespace SymbolAtlas

variable {α β ε : Type}

/- A round that fails does so at the first item that fails. -/
theorem forM_eq_error_iff
    {f : α → Except ε Unit}
    {items : List α}
    {error : ε} :
    items.forM f = .error error ↔
      ∃ before item after,
        items = before ++ item :: after ∧
        (∀ other ∈ before, f other = .ok ()) ∧
        f item = .error error := by
  induction items with
  | nil =>
      constructor
      · intro hNil
        cases hNil
      · rintro ⟨before, item, after, hNil, -⟩
        simp at hNil
  | cons first rest ih =>
      change (f first >>= fun _ => rest.forM f) = _ ↔ _
      constructor
      · intro hFails
        cases hFirst : f first with
        | error other =>
            rw [hFirst] at hFails
            cases hFails
            exact ⟨[], first, rest, rfl, by simp, hFirst⟩
        | ok value =>
            rw [hFirst] at hFails
            rcases ih.mp hFails with
              ⟨before, item, after, rfl, hBefore, hItem⟩
            refine ⟨first :: before, item, after, rfl, ?_, hItem⟩
            exact List.forall_mem_cons.mpr ⟨hFirst, hBefore⟩
      · rintro ⟨before, item, after, hItems, hBefore, hItem⟩
        cases before with
        | nil =>
            cases hItems
            rw [hItem]
            rfl
        | cons other others =>
            cases hItems
            rw [List.forall_mem_cons] at hBefore
            rw [hBefore.1]
            exact ih.mpr
              ⟨others, item, after, rfl, hBefore.2, hItem⟩

theorem failsWith_forM
    {P : Error → Prop}
    {f : α → Except Error Unit}
    (hEach : ∀ item, FailsWith P (f item))
    (items : List α) :
    FailsWith P (items.forM f) := by
  intro error hError
  rcases forM_eq_error_iff.mp hError with ⟨_, item, _, -, -, hItem⟩
  exact hEach item error hItem

/- Collecting values has the troubles of looking at each. -/
theorem map_mapM
    (f : α → Except ε β)
    (items : List α) :
    (items.mapM f).map (fun _ => ()) =
      items.forM fun item => (f item).map fun _ => () := by
  induction items with
  | nil => rfl
  | cons first rest ih =>
      rw [List.mapM_cons]
      change _ = ((f first).map fun _ => ()) >>= fun _ =>
        rest.forM fun item => (f item).map fun _ => ()
      rw [← ih]
      cases f first with
      | error error => rfl
      | ok value =>
          cases rest.mapM f with
          | error error => rfl
          | ok values => rfl

end SymbolAtlas

------------------------------------------------------------
-- Trouble Apart From the Value
------------------------------------------------------------

namespace SymbolAtlas

variable {α β : Type} {first second : Option Error}
  {a : α} {b : β}

/- The error of an attempt, if there is one. -/
def errorOf? : Except Error α → Option Error
| .ok _ => none
| .error error => some error

/- The result is the trouble if there is some, or else the value. -/
structure Answers
    (trouble : Option Error)
    (value : α)
    (result : Except Error α) : Prop where
  ok : trouble = none → result = .ok value
  error : ∀ error, trouble = some error → result = .error error

theorem errorOf?_eq_some_iff
    {result : Except Error α}
    {error : Error} :
    errorOf? result = some error ↔ result = .error error := by
  cases result with
  | ok value => simp [errorOf?]
  | error other => simp [errorOf?]

theorem answers_ok
    (value : α) :
    Answers none value (.ok value) :=
  ⟨fun _ => rfl, nofun⟩

theorem answers_error
    (error : Error)
    (value : α) :
    Answers (some error) value (.error error) where
  ok := nofun
  error := by
    rintro other ⟨⟩
    rfl

/- What an attempt answers, if its value is known. -/
theorem answers_errorOf?
    {result : Except Error α}
    (hValue : ∀ other, result = .ok other → other = a) :
    Answers (errorOf? result) a result := by
  cases result with
  | ok other =>
      rw [hValue other rfl]
      exact answers_ok a
  | error error => exact answers_error error a

/- The earlier of two troubles counts. -/
theorem Answers.bind
    {result : Except Error α}
    {next : α → Except Error β}
    (hResult : Answers first a result)
    (hNext : Answers second b (next a)) :
    Answers (first.or second) b (result >>= next) := by
  cases first with
  | none =>
      rw [hResult.ok rfl, Option.none_or]
      exact hNext
  | some error =>
      rw [hResult.error error rfl]
      exact answers_error error b

theorem Answers.map
    {result : Except Error α}
    (hResult : Answers first a result)
    (f : α → β) :
    Answers first (f a) (result.map f) := by
  cases first with
  | none =>
      rw [hResult.ok rfl]
      exact answers_ok (f a)
  | some error =>
      rw [hResult.error error rfl]
      exact answers_error error (f a)

theorem Answers.congr
    {result : Except Error α}
    (hAnswers : Answers first a result)
    (hSame : first = second) :
    Answers second a result :=
  hSame ▸ hAnswers

end SymbolAtlas
