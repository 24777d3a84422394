import SymbolAtlas.Proofs.Index.Sessions

/-
  Look-ups flag what they change.

  A look-up that succeeds leaves everything as it was known, or
  marks the session, so that what is known now will be saved.

  Key definitions:
    * `Index.Flagged`
  Key theorems:
    * `Index.ends_bringUpToDate`
    * `Index.ends_lookup`
-/

namespace SymbolAtlas

namespace Index

/- The cache was loaded. -/
def IsLoaded (i : Index) : Prop :=
  i.session.cacheLoaded = true

/-
  The cache was loaded, and what is known has a property unless
  there is something to save.
-/
def Flagged (H : Snapshot → Prop) (i : Index) : Prop :=
  i.IsLoaded ∧ (i.session.dirty = false → H i.known)

variable {H : Snapshot → Prop} {c : Context} {symbol : String}

/- Whatever was changed before is flagged now. -/
theorem ends_markDirty :
    Work.Ends IsLoaded markDirty fun _ => Flagged H := by
  apply Work.ends_modify
  intro i hLoaded
  refine ⟨hLoaded, ?_⟩
  intro hClean
  cases hClean

theorem ends_revise
    (f : Snapshot → Snapshot) :
    Work.Ends (Flagged H) (revise f) fun _ => IsLoaded :=
  Work.ends_modify fun _ hFlagged => hFlagged.1

theorem ends_rebuild
    (c : Context) :
    Work.Ends IsLoaded (rebuild c) fun _ => IsLoaded := by
  intro i value final hLoaded hRun
  unfold IsLoaded
  rw [session_of_rebuild hRun]
  exact hLoaded

theorem ends_update
    (c : Context)
    (file : String) :
    Work.Ends IsLoaded (update c file) fun _ => IsLoaded := by
  intro i value final hLoaded hRun
  have hSession := session_update c file i
  rw [hRun, Work.stateAfter_ok] at hSession
  unfold IsLoaded
  rw [hSession]
  exact hLoaded

theorem ends_recall
    {P : Index → Prop}
    (symbol : String) :
    Work.Ends P ( entry? symbol) fun _ => P := by
  intro i value final hStart hRun
  cases hRun
  exact hStart

/- A miss changes the counters and is flagged. -/
theorem ends_miss
    (symbol : String)
    (misses : Int) :
    Work.Ends (Flagged H) (miss symbol misses)
      fun _ => Flagged H :=
  (ends_revise _).bind fun _ => ends_markDirty

/- A hit is flagged if it ends a row of misses. -/
theorem ends_hit
    (symbol : String) :
    Work.Ends (Flagged H) (hit symbol) fun _ => Flagged H := by
  intro i value final hFlagged hRun
  rw [hit_eq] at hRun
  split at hRun
  · cases hRun
    refine ⟨hFlagged.1, ?_⟩
    intro hClean
    cases hClean
  · cases hRun
    exact hFlagged

theorem ends_answer
    (misses : Int)
    (entry : Option Entry) :
    Work.Ends (Flagged H) (answer c symbol misses entry)
      fun _ => Flagged H := by
  unfold answer
  split
  · refine (ends_miss symbol misses).bind fun _ => ?_
    exact Work.ends_pure fun _ hFlagged => hFlagged
  · cases entry with
    | none => exact Work.ends_pure fun _ hFlagged => hFlagged
    | some found =>
        refine (ends_hit symbol).bind fun _ => ?_
        exact Work.ends_pure fun _ hFlagged => hFlagged

/- A rebuild within a look-up is flagged. -/
theorem ends_rescan
    (entry : Option Entry) :
    Work.Ends (Flagged H) (bringUpToDate.rescan c symbol entry)
      fun _ => Flagged H := by
  have hRefresh :
      Work.Ends (Flagged H) (refresh c) fun _ => IsLoaded := by
    unfold refresh
    refine Work.ends_get.bind fun i => ?_
    split
    · exact (ends_rebuild c).of_imp fun _ hState => hState.2.1
    · exact Work.ends_pure fun _ hState => hState.2.1
  unfold bringUpToDate.rescan
  refine Work.ends_get.bind fun i => ?_
  split
  · exact Work.ends_pure fun _ hState => hState.2
  · refine (hRefresh.of_imp fun _ hState => hState.2).bind
      fun _ => ?_
    exact ends_markDirty.bind fun _ => ends_recall symbol

/- So is an update. -/
theorem ends_bringUpToDate
    (c : Context)
    (symbol : String) :
    Work.Ends (Flagged H) (bringUpToDate c symbol)
      fun _ => Flagged H := by
  unfold bringUpToDate
  refine (ends_recall symbol).bind fun found => ?_
  cases found with
  | none => exact ends_rescan none
  | some entry =>
      dsimp only
      split
      · split
        · refine ((ends_update c entry.file).of_imp
            fun _ hFlagged => hFlagged.1).bind fun _ => ?_
          exact ends_markDirty.bind fun _ => ends_recall symbol
        · exact ends_recall symbol
      · exact ends_rescan (some entry)

/- What a look-up changes it flags. -/
theorem ends_lookup
    (c : Context)
    (symbol : String) :
    Work.Ends (Flagged H) (lookup c symbol)
      fun _ => Flagged H := by
  intro i value final hFlagged hRun
  by_cases hSearch : MaySearch c i symbol
  · rw [lookup_of_maySearch hSearch] at hRun
    exact ((ends_bringUpToDate c symbol).bind
      fun entry => ends_answer _ entry) i value final hFlagged hRun
  · rw [lookup_of_not_maySearch hSearch] at hRun
    split at hRun
    · cases hRun
      exact hFlagged
    · exact ends_answer _ _ i value final hFlagged hRun

end Index

end SymbolAtlas
