/-
  Laws of work that changes a state and may fail.

  Work in sequence ends with the first error, and what was
  changed before it stays. A loop over a list therefore either
  goes through the whole list or stops within a first part of
  it.

  Key definitions:
    * `Work.stateAfter`
    * `Work.Keeps`, `Work.Yields`, `Work.Ends`, `Work.Fails`
  Key theorems:
    * `Work.bind_of_ok`, `Work.bind_of_error`
    * `Work.get_eq`, `Work.modify_eq`, `Work.throw_eq`
    * `Work.forM_append`
    * `Work.forM_cases`
    * `Work.forM_preserves`, `Work.forM_keeps`
    * `Work.Keeps.bind`, `Work.Keeps.forM`
    * `Work.Ends.bind`, `Work.Ends.forM`
    * `Work.Yields.bind`, `Work.Fails.bind`
-/

------------------------------------------------------------
-- Sequences
------------------------------------------------------------

namespace SymbolAtlas

namespace Work

variable {ε σ α β : Type}

/- The state that work leaves behind, whatever its outcome. -/
def stateAfter : EStateM.Result ε σ α → σ
| .ok _ state => state
| .error _ state => state

@[simp] theorem stateAfter_ok
    (value : α)
    (state : σ) :
    stateAfter (.ok value state : EStateM.Result ε σ α) =
      state :=
  rfl

@[simp] theorem stateAfter_error
    (error : ε)
    (state : σ) :
    stateAfter (.error error state : EStateM.Result ε σ α) =
      state :=
  rfl

/- An outcome is a value if it is one after errors are forgotten. -/
theorem toOption_eq_some_iff
    {result : Except ε α}
    {value : α} :
    result.toOption = some value ↔ result = .ok value := by
  cases result with
  | error error =>
      constructor
      · intro hSome
        cases hSome
      · intro hOk
        cases hOk
  | ok other =>
      constructor
      · intro hSome
        cases hSome
        rfl
      · intro hOk
        cases hOk
        rfl

/- Work goes on where the work before it has ended. -/
theorem bind_of_ok
    {first : EStateM ε σ α}
    {next : α → EStateM ε σ β}
    {start middle : σ}
    {value : α}
    (hFirst : first start = .ok value middle) :
    (first >>= next) start = next value middle := by
  simp only [bind, EStateM.bind, hFirst]

/- Nothing follows an error. -/
theorem bind_of_error
    {first : EStateM ε σ α}
    {next : α → EStateM ε σ β}
    {start middle : σ}
    {error : ε}
    (hFirst : first start = .error error middle) :
    (first >>= next) start = .error error middle := by
  simp only [bind, EStateM.bind, hFirst]

theorem get_eq
    (state : σ) :
    (get : EStateM ε σ σ) state = .ok state state :=
  rfl

theorem modify_eq
    (f : σ → σ)
    (state : σ) :
    (modify f : EStateM ε σ PUnit) state = .ok () (f state) :=
  rfl

theorem throw_eq
    (error : ε)
    (state : σ) :
    (throw error : EStateM ε σ α) state = .error error state :=
  rfl

end Work

end SymbolAtlas

------------------------------------------------------------
-- Loops
------------------------------------------------------------

namespace SymbolAtlas

namespace Work

variable {ε σ α : Type}

@[simp] theorem forM_nil
    (f : α → EStateM ε σ Unit)
    (start : σ) :
    ([] : List α).forM f start = .ok () start :=
  rfl

theorem forM_cons_of_ok
    {f : α → EStateM ε σ Unit}
    {item : α}
    {start middle : σ}
    (hItem : f item start = .ok () middle)
    (rest : List α) :
    (item :: rest).forM f start = rest.forM f middle := by
  change (f item >>= fun _ => rest.forM f) start = _
  rw [bind_of_ok hItem]

theorem forM_cons_of_error
    {f : α → EStateM ε σ Unit}
    {item : α}
    {start middle : σ}
    {error : ε}
    (hItem : f item start = .error error middle)
    (rest : List α) :
    (item :: rest).forM f start = .error error middle := by
  change (f item >>= fun _ => rest.forM f) start = _
  rw [bind_of_error hItem]

/- A loop over two lists is two loops. -/
theorem forM_append
    {f : α → EStateM ε σ Unit}
    {before : List α}
    {start middle : σ}
    (hBefore : before.forM f start = .ok () middle)
    (rest : List α) :
    (before ++ rest).forM f start = rest.forM f middle := by
  induction before generalizing start with
  | nil =>
      cases hBefore
      rfl
  | cons item items ih =>
      cases hItem : f item start with
      | ok value next =>
          rw [forM_cons_of_ok hItem] at hBefore
          rw [List.cons_append, forM_cons_of_ok hItem]
          exact ih hBefore
      | error error next =>
          rw [forM_cons_of_error hItem] at hBefore
          cases hBefore

/-
  A loop goes through its list, or it goes through a first part
  and fails at the item behind it.
-/
theorem forM_cases
    (f : α → EStateM ε σ Unit)
    (items : List α)
    (start : σ) :
    (∃ final, items.forM f start = .ok () final) ∨
      ∃ before item after middle error final,
        items = before ++ item :: after ∧
        before.forM f start = .ok () middle ∧
        f item middle = .error error final ∧
        items.forM f start = .error error final := by
  induction items generalizing start with
  | nil => exact Or.inl ⟨start, rfl⟩
  | cons item rest ih =>
      cases hItem : f item start with
      | error error final =>
          right
          exact ⟨[], item, rest, start, error, final, rfl, rfl,
            hItem, forM_cons_of_error hItem rest⟩
      | ok value next =>
          rw [forM_cons_of_ok hItem]
          rcases ih next with ⟨final, hFinal⟩ | hFails
          · exact Or.inl ⟨final, hFinal⟩
          · right
            rcases hFails with
              ⟨before, failing, after, middle, error, final,
                hRest, hBefore, hFailing, hLoop⟩
            refine ⟨item :: before, failing, after, middle,
              error, final, ?_, ?_, hFailing, hLoop⟩
            · rw [hRest, List.cons_append]
            · rw [forM_cons_of_ok hItem]
              exact hBefore

/- What every round preserves, the loop preserves. -/
theorem forM_preserves
    {f : α → EStateM ε σ Unit}
    (P : σ → Prop)
    {items : List α}
    (hRound :
      ∀ item ∈ items, ∀ state,
        P state → P (stateAfter (f item state)))
    {start : σ}
    (hStart : P start) :
    P (stateAfter (items.forM f start)) := by
  induction items generalizing start with
  | nil => exact hStart
  | cons item rest ih =>
      have hItem := hRound item List.mem_cons_self start hStart
      cases hRun : f item start with
      | error error final =>
          rw [forM_cons_of_error hRun]
          simpa [hRun] using hItem
      | ok value next =>
          rw [forM_cons_of_ok hRun]
          rw [hRun] at hItem
          apply ih _ hItem
          intro other hOther
          exact hRound other (List.mem_cons_of_mem _ hOther)

/- What every successful round keeps, a whole loop keeps. -/
theorem forM_keeps
    {f : α → EStateM ε σ Unit}
    (P : σ → Prop)
    {items : List α}
    (hRound :
      ∀ item state next,
        P state → f item state = .ok () next → P next)
    {start final : σ}
    (hStart : P start)
    (hLoop : items.forM f start = .ok () final) :
    P final := by
  induction items generalizing start with
  | nil =>
      cases hLoop
      exact hStart
  | cons item rest ih =>
      cases hItem : f item start with
      | error error next =>
          rw [forM_cons_of_error hItem] at hLoop
          cases hLoop
      | ok value next =>
          rw [forM_cons_of_ok hItem] at hLoop
          exact ih (hRound item start next hStart hItem) hLoop

end Work

end SymbolAtlas

------------------------------------------------------------
-- Properties That Work Keeps
------------------------------------------------------------

namespace SymbolAtlas

namespace Work

variable {ε σ α β : Type}

/- The work keeps a property, whatever its outcome. -/
def Keeps (P : σ → Prop) (w : EStateM ε σ α) : Prop :=
  ∀ state, P state → P (stateAfter (w state))

variable {P : σ → Prop}

theorem keeps_pure
    (value : α) :
    Keeps P (pure value : EStateM ε σ α) :=
  fun _ hState => hState

theorem keeps_throw
    (error : ε) :
    Keeps P (throw error : EStateM ε σ α) :=
  fun _ hState => hState

theorem keeps_modify
    {f : σ → σ}
    (hChange : ∀ state, P state → P (f state)) :
    Keeps P (modify f : EStateM ε σ PUnit) :=
  hChange

theorem Keeps.bind
    {first : EStateM ε σ α}
    {next : α → EStateM ε σ β}
    (hFirst : Keeps P first)
    (hNext : ∀ value, Keeps P (next value)) :
    Keeps P (first >>= next) := by
  intro state hState
  have hMiddle := hFirst state hState
  cases hRun : first state with
  | error error final =>
      rw [bind_of_error hRun]
      rw [hRun] at hMiddle
      exact hMiddle
  | ok value middle =>
      rw [bind_of_ok hRun]
      rw [hRun] at hMiddle
      exact hNext value middle hMiddle

theorem Keeps.forM
    {f : α → EStateM ε σ Unit}
    {items : List α}
    (hRound : ∀ item ∈ items, Keeps P (f item)) :
    Keeps P (items.forM f) :=
  fun _ hState => forM_preserves P hRound hState

/-
  The work keeps a property, and what it gives if it succeeds
  has another one.
-/
def Yields
    (P : σ → Prop)
    (Q : α → Prop)
    (w : EStateM ε σ α) : Prop :=
  ∀ state, P state →
    P (stateAfter (w state)) ∧
      ∀ value final, w state = .ok value final → Q value

variable {Q : α → Prop} {R : β → Prop}

theorem Keeps.yields
    {w : EStateM ε σ α}
    (hKeeps : Keeps P w) :
    Yields P (fun _ => True) w :=
  fun state hState => ⟨hKeeps state hState, fun _ _ _ => trivial⟩

theorem Yields.keeps
    {w : EStateM ε σ α}
    (hYields : Yields P Q w) :
    Keeps P w :=
  fun state hState => (hYields state hState).1

theorem yields_pure
    {value : α}
    (hValue : Q value) :
    Yields P Q (pure value : EStateM ε σ α) := by
  intro state hState
  refine ⟨hState, ?_⟩
  intro other final hRun
  cases hRun
  exact hValue

theorem yields_throw
    (error : ε) :
    Yields P Q (throw error : EStateM ε σ α) := by
  intro state hState
  refine ⟨hState, ?_⟩
  intro value final hRun
  cases hRun

theorem Yields.bind
    {first : EStateM ε σ α}
    {next : α → EStateM ε σ β}
    (hFirst : Yields P Q first)
    (hNext : ∀ value, Q value → Yields P R (next value)) :
    Yields P R (first >>= next) := by
  intro state hState
  rcases hFirst state hState with ⟨hMiddle, hValue⟩
  cases hRun : first state with
  | error error final =>
      rw [bind_of_error hRun]
      rw [hRun] at hMiddle
      refine ⟨hMiddle, ?_⟩
      intro value last hOk
      cases hOk
  | ok value middle =>
      rw [bind_of_ok hRun]
      rw [hRun] at hMiddle
      exact hNext value (hValue value middle hRun) middle hMiddle

/- The work that follows may rely on what it is given. -/
theorem Yields.bind_keeps
    {first : EStateM ε σ α}
    {next : α → EStateM ε σ β}
    (hFirst : Yields P Q first)
    (hNext : ∀ value, Q value → Keeps P (next value)) :
    Keeps P (first >>= next) :=
  (hFirst.bind fun value hValue =>
    (hNext value hValue).yields).keeps

/- The state that is read has the property. -/
theorem yields_get :
    Yields P P (get : EStateM ε σ σ) := by
  intro state hState
  refine ⟨hState, ?_⟩
  intro value final hRun
  cases hRun
  exact hState

end Work

end SymbolAtlas

------------------------------------------------------------
-- Work That Succeeds
------------------------------------------------------------

namespace SymbolAtlas

namespace Work

variable {ε σ α β : Type}

/-
  If the work starts with a property and succeeds, its value and
  its end have another one.
-/
def Ends
    (P : σ → Prop)
    (w : EStateM ε σ α)
    (Q : α → σ → Prop) : Prop :=
  ∀ start value final,
    P start → w start = .ok value final → Q value final

variable {P : σ → Prop} {Q : α → σ → Prop} {R : β → σ → Prop}

/- Work that succeeds has succeeded in both of its parts. -/
theorem exists_of_bind_eq_ok
    {first : EStateM ε σ α}
    {next : α → EStateM ε σ β}
    {start final : σ}
    {value : β}
    (hRun : (first >>= next) start = .ok value final) :
    ∃ other middle,
      first start = .ok other middle ∧
      next other middle = .ok value final := by
  cases hFirst : first start with
  | error error middle =>
      rw [bind_of_error hFirst] at hRun
      cases hRun
  | ok other middle =>
      rw [bind_of_ok hFirst] at hRun
      exact ⟨other, middle, rfl, hRun⟩

theorem ends_pure
    {value : α}
    (hValue : ∀ state, P state → Q value state) :
    Ends P (pure value : EStateM ε σ α) Q := by
  intro start other final hStart hRun
  cases hRun
  exact hValue start hStart

theorem ends_throw
    (error : ε) :
    Ends P (throw error : EStateM ε σ α) Q := by
  intro start value final hStart hRun
  cases hRun

theorem Ends.bind
    {first : EStateM ε σ α}
    {next : α → EStateM ε σ β}
    (hFirst : Ends P first Q)
    (hNext : ∀ value, Ends (Q value) (next value) R) :
    Ends P (first >>= next) R := by
  intro start value final hStart hRun
  rcases exists_of_bind_eq_ok hRun with
    ⟨other, middle, hOther, hRest⟩
  exact hNext other middle value final
    (hFirst start other middle hStart hOther) hRest

/- The state that is read is the one that the work starts in. -/
theorem ends_get :
    Ends P (get : EStateM ε σ σ)
      (fun value state => value = state ∧ P state) := by
  intro start value final hStart hRun
  cases hRun
  exact ⟨rfl, hStart⟩

theorem ends_modify
    {f : σ → σ}
    {S : PUnit → σ → Prop}
    (hChange : ∀ state, P state → S () (f state)) :
    Ends P (modify f : EStateM ε σ PUnit) S := by
  intro start value final hStart hRun
  cases hRun
  exact hChange start hStart

theorem Ends.mono
    {w : EStateM ε σ α}
    {S : α → σ → Prop}
    (hEnds : Ends P w Q)
    (hWeaker : ∀ value state, Q value state → S value state) :
    Ends P w S :=
  fun start value final hStart hRun =>
    hWeaker value final (hEnds start value final hStart hRun)

theorem Ends.of_imp
    {w : EStateM ε σ α}
    {S : σ → Prop}
    (hEnds : Ends P w Q)
    (hStronger : ∀ state, S state → P state) :
    Ends S w Q :=
  fun start value final hStart hRun =>
    hEnds start value final (hStronger start hStart) hRun

/- What one round leads back to holds after all of them. -/
theorem Ends.forM
    {f : α → EStateM ε σ Unit}
    {items : List α}
    (hRound : ∀ item ∈ items, Ends P (f item) fun _ => P) :
    Ends P (items.forM f) fun _ => P := by
  induction items with
  | nil =>
      intro start value final hStart hRun
      cases hRun
      exact hStart
  | cons item rest ih =>
      change Ends P (f item >>= fun _ => rest.forM f) fun _ => P
      refine (hRound item List.mem_cons_self).bind fun _ => ih ?_
      intro other hOther
      exact hRound other (List.mem_cons_of_mem _ hOther)

end Work

end SymbolAtlas

------------------------------------------------------------
-- Errors of Work
------------------------------------------------------------

namespace SymbolAtlas

namespace Work

variable {ε σ α β : Type} {R : ε → Prop}

/- If the work fails, its error has a property. -/
def Fails (R : ε → Prop) (w : EStateM ε σ α) : Prop :=
  ∀ start error final, w start = .error error final → R error

theorem fails_pure
    (value : α) :
    Fails R (pure value : EStateM ε σ α) := by
  intro start error final hFails
  cases hFails

theorem fails_get : Fails R (get : EStateM ε σ σ) := by
  intro start error final hFails
  cases hFails

theorem fails_modify
    (f : σ → σ) :
    Fails R (modify f : EStateM ε σ PUnit) := by
  intro start error final hFails
  cases hFails

theorem fails_throw
    {error : ε}
    (hError : R error) :
    Fails R (throw error : EStateM ε σ α) := by
  intro start other final hFails
  cases hFails
  exact hError

/- Work in sequence fails as one of its parts does. -/
theorem Fails.bind
    {first : EStateM ε σ α}
    {next : α → EStateM ε σ β}
    (hFirst : Fails R first)
    (hNext : ∀ value, Fails R (next value)) :
    Fails R (first >>= next) := by
  intro start error final hFails
  cases hRun : first start with
  | error other middle =>
      rw [bind_of_error hRun] at hFails
      cases hFails
      exact hFirst start _ _ hRun
  | ok value middle =>
      rw [bind_of_ok hRun] at hFails
      exact hNext value middle error final hFails

theorem Fails.forM
    {f : α → EStateM ε σ Unit}
    {items : List α}
    (hRound : ∀ item ∈ items, Fails R (f item)) :
    Fails R (items.forM f) := by
  induction items with
  | nil => exact fails_pure ()
  | cons item rest ih =>
      change Fails R (f item >>= fun _ => rest.forM f)
      refine (hRound item List.mem_cons_self).bind fun _ => ih ?_
      intro other hOther
      exact hRound other (List.mem_cons_of_mem _ hOther)

end Work

end SymbolAtlas
