import SymbolAtlas.Proofs.Index.Sessions
import SymbolAtlas.Proofs.Loader.Phases

/-
  Closing a loader after work that failed.

  Only a look-up marks the session, and only once it can fail no
  more. So work that fails in a new loader leaves nothing to
  save, and closing the loader then succeeds.

  Key definitions:
    * `Loader.IsUnmarked`
  Key theorems:
    * `Index.lookup_error_cases`
    * `Loader.isUnmarked_of_resolve`
    * `Loader.thenClose_of_error`
-/

------------------------------------------------------------
-- Look-Ups That Fail
------------------------------------------------------------

namespace SymbolAtlas

namespace Index

variable {c : Context} {symbol : String} {i final : Index}
  {error : Error}

/- The answer of a look-up is no error. -/
theorem answer_ne_error
    {misses : Int}
    {entry : Option Entry} :
    answer c symbol misses entry i ≠ .error error final := by
  intro hFails
  rcases answer_ok c symbol misses entry i with
    ⟨value, next, hAnswer, -⟩
  cases hAnswer.symm.trans hFails

/- A look-up fails only as a rebuild or an update does. -/
theorem lookup_error_cases
    (hFails : lookup c symbol i = .error error final) :
    rebuild c i = .error error final ∨
      ∃ file, update c file i = .error error final := by
  by_cases hSearch : MaySearch c i symbol
  · rw [lookup_of_maySearch hSearch] at hFails
    cases hUpToDate : bringUpToDate c symbol i with
    | ok entry next =>
        rw [Work.bind_of_ok hUpToDate] at hFails
        exact absurd hFails answer_ne_error
    | error other next =>
        rw [Work.bind_of_error hUpToDate] at hFails
        cases hFails
        by_cases hRescans : Rescans c i symbol
        · left
          rw [bringUpToDate_of_rescans hRescans] at hUpToDate
          cases hRebuild : rebuild c i with
          | ok value after =>
              rw [hRebuild] at hUpToDate
              cases hUpToDate
          | error found after =>
              rw [hRebuild] at hUpToDate
              cases hUpToDate
              rfl
        · right
          by_cases hRenews : ∃ entry, Renews c i symbol entry
          · rcases hRenews with ⟨entry, hRenews⟩
            rw [bringUpToDate_of_renews hRenews] at hUpToDate
            refine ⟨entry.file, ?_⟩
            cases hUpdate : update c entry.file i with
            | ok value after =>
                rw [hUpdate] at hUpToDate
                cases hUpToDate
            | error found after =>
                rw [hUpdate] at hUpToDate
                cases hUpToDate
                rfl
          · rw [bringUpToDate_otherwise hSearch hRescans
              (not_exists.mp hRenews)] at hUpToDate
            cases hUpToDate
  · rw [lookup_of_not_maySearch hSearch] at hFails
    split at hFails
    · cases hFails
    · exact absurd hFails answer_ne_error

end Index

end SymbolAtlas

------------------------------------------------------------
-- Nothing to Save
------------------------------------------------------------

namespace SymbolAtlas

namespace Loader

/- There is nothing to save. -/
def IsUnmarked (l : Loader) : Prop :=
  l.index.session.dirty = false

variable {l after : Loader} {error : Error} {α : Type}

/- Work on the desk does not touch the index. -/
theorem unmarked_onDesk
    (w : Desk.Work α) :
    Work.Keeps IsUnmarked (onDesk w) := by
  intro l hUnmarked
  unfold onDesk
  cases w l.desk <;> exact hUnmarked

theorem unmarked_onIndex
    {w : Index.Context → Index.Work α}
    (hWork :
      ∀ c, Work.Keeps (fun i => i.session.dirty = false) (w c)) :
    Work.Keeps IsUnmarked (onIndex w) := by
  intro l hUnmarked
  have hAfter := hWork l.context l.index hUnmarked
  cases hRun : w l.context l.index with
  | ok value i =>
      rw [onIndex_of_ok hRun]
      rw [hRun] at hAfter
      exact hAfter
  | error error i =>
      rw [onIndex_of_error hRun]
      rw [hRun] at hAfter
      exact hAfter

/- A rebuild leaves the mark of the session alone. -/
theorem unmarked_rebuilt
    (c : Index.Context) :
    Work.Keeps (fun i => i.session.dirty = false)
      (Index.rebuild c) := by
  intro i hUnmarked
  rw [Index.session_rebuild]
  exact hUnmarked

theorem unmarked_store :
    Work.Keeps IsUnmarked store := by
  refine Work.yields_get.bind_keeps fun l _ => ?_
  split
  · exact Work.keeps_throw _
  · split
    · exact Work.keeps_throw _
    · exact Work.keeps_pure _

theorem unmarked_save :
    Work.Keeps IsUnmarked save :=
  unmarked_store.bind fun _ =>
    Work.yields_get.bind_keeps fun _ _ => unmarked_onDesk _

theorem unmarked_build :
    Work.Keeps IsUnmarked build := by
  have hScan :
      Work.Keeps IsUnmarked
        (onIndex fun c => do
          Index.clear
          Index.rebuild c) := by
    refine unmarked_onIndex fun c => ?_
    have hClear :
        Work.Keeps (fun i => i.session.dirty = false)
          Index.clear :=
      fun _ hUnmarked => hUnmarked
    exact hClear.bind fun _ => unmarked_rebuilt c
  exact hScan.bind fun _ =>
    Work.yields_get.bind_keeps fun _ _ => Work.keeps_pure _

theorem unmarked_load
    (s : Store) :
    Work.Keeps IsUnmarked
      (s.load Others.absent onDesk build) := by
  refine (unmarked_onDesk _).bind fun found => ?_
  cases found with
  | inl known => exact Work.keeps_pure _
  | inr lock =>
      exact unmarked_build.bind fun _ =>
        (unmarked_onDesk _).bind fun _ => Work.keeps_pure _

theorem unmarked_markLoaded :
    Work.Keeps IsUnmarked markLoaded :=
  unmarked_onIndex fun _ =>
    Work.keeps_modify fun _ hUnmarked => hUnmarked

theorem unmarked_loadCache :
    Work.Keeps IsUnmarked loadCache := by
  refine Work.yields_get.bind_keeps fun l _ => ?_
  split
  · refine unmarked_store.bind fun s => ?_
    refine (unmarked_load s).bind fun k => ?_
    refine Work.Keeps.bind ?_ fun _ => unmarked_markLoaded
    exact unmarked_onIndex fun _ =>
      Work.keeps_modify fun _ hUnmarked => hUnmarked
  · exact Work.keeps_pure _

theorem unmarked_listing :
    Work.Keeps IsUnmarked listing :=
  unmarked_loadCache.bind fun _ =>
    Work.yields_get.bind_keeps fun _ _ => Work.keeps_pure _

theorem unmarked_rebuild :
    Work.Keeps IsUnmarked rebuild := by
  refine unmarked_markLoaded.bind fun _ => ?_
  refine unmarked_build.bind fun _ => ?_
  refine Work.yields_get.bind_keeps fun l _ => ?_
  split
  · refine unmarked_save.bind fun _ => ?_
    exact unmarked_onIndex fun _ => Work.keeps_modify fun _ _ => rfl
  · exact Work.keeps_pure _

/- A look-up that fails has not marked the session. -/
theorem isUnmarked_of_resolve
    {symbol : String}
    (hUnmarked : l.IsUnmarked)
    (hFails : resolve symbol l = .error error after) :
    after.IsUnmarked := by
  have hLoaded := unmarked_loadCache l hUnmarked
  unfold resolve at hFails
  cases hLoad : loadCache l with
  | error other next =>
      rw [Work.bind_of_error hLoad] at hFails
      rw [hLoad] at hLoaded
      cases hFails
      exact hLoaded
  | ok value next =>
      rw [Work.bind_of_ok hLoad] at hFails
      rw [hLoad, Work.stateAfter_ok] at hLoaded
      cases hLookup :
          Index.lookup next.context symbol next.index with
      | ok found i =>
          rw [onIndex_of_ok hLookup] at hFails
          cases hFails
      | error other i =>
          rw [onIndex_of_error hLookup] at hFails
          cases hFails
          rcases Index.lookup_error_cases hLookup with
            hRebuild | ⟨file, hUpdate⟩
          · have hSession :=
              Index.session_rebuild next.context next.index
            rw [hRebuild, Work.stateAfter_error] at hSession
            unfold IsUnmarked
            rw [session_withIndex, hSession]
            exact hLoaded
          · have hSession :=
              Index.session_update next.context file next.index
            rw [hUpdate, Work.stateAfter_error] at hSession
            unfold IsUnmarked
            rw [session_withIndex, hSession]
            exact hLoaded

end Loader

end SymbolAtlas

------------------------------------------------------------
-- Closing
------------------------------------------------------------

namespace SymbolAtlas

namespace Loader

variable {l after : Loader} {error : Error} {α : Type}

/- With nothing to save a loader can be closed. -/
theorem exists_close_eq_ok
    (hUnmarked : l.IsUnmarked) :
    ∃ closed, close l = .ok () closed := by
  unfold IsUnmarked at hUnmarked
  unfold close
  rw [Work.bind_of_ok (Work.get_eq l)]
  simp only [hUnmarked, Bool.false_and, Bool.false_eq_true, if_false]
  exact ⟨_, rfl⟩

/- The error of the work is that of the work with its closing. -/
theorem thenClose_of_error
    {w : Work α}
    (hFails : w l = .error error after)
    (hUnmarked : after.IsUnmarked) :
    ∃ closed, thenClose w l = .error error closed := by
  rcases exists_close_eq_ok hUnmarked with ⟨closed, hClose⟩
  unfold thenClose
  simp only [hFails, hClose]
  exact ⟨closed, rfl⟩

theorem isUnmarked_of_start
    {s : Settings}
    {desk final : Desk}
    (hStart : start s desk = .ok l final) :
    l.IsUnmarked := by
  rw [eq_of_start hStart]
  rfl

end Loader

end SymbolAtlas
