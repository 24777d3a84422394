import SymbolAtlas.Proofs.Index.Lasting
import SymbolAtlas.Proofs.Index.Lookups

/-
  What calls of an index do to its session.

  Only a rebuild counts a scan of everything, and it counts it
  whatever its outcome. Updates leave the session alone. A
  look-up rebuilds at most once, and an error of the rebuild is
  an error of the look-up.

  Key definitions:
    * `Session.SameScans`
  Key theorems:
    * `Index.session_rebuild`, `Index.session_update`
    * `Index.lookup_scan_cases`, `Index.sameScans_lookup`
-/

------------------------------------------------------------
-- Rebuilds and Updates
------------------------------------------------------------

namespace SymbolAtlas

namespace Index

/- No step changes the session. -/
theorem lasting_session
    (s : Session) :
    Lasting fun i => i.session = s where
  noted _ _ hSession := hSession
  entered _ _ hSession := hSession
  notedEmpty _ _ hSession := hSession
  forgotten _ hSession := hSession

/- A rebuild counts a scan of everything, even if it fails. -/
theorem session_rebuild
    (c : Context)
    (i : Index) :
    (Work.stateAfter (rebuild c i)).session =
      { i.session with
        refreshed := true
        walks := i.session.walks + 1 } :=
  (lasting_session _).rebuild c rfl

theorem session_of_rebuild
    {c : Context}
    {i final : Index}
    (hRebuild : rebuild c i = .ok () final) :
    final.session =
      { i.session with
        refreshed := true
        walks := i.session.walks + 1 } := by
  rw [← session_rebuild c i, hRebuild, Work.stateAfter_ok]

/- Updates leave the session alone. -/
theorem session_update
    (c : Context)
    (file : String)
    (i : Index) :
    (Work.stateAfter (update c file i)).session = i.session :=
  (lasting_session i.session).update c file i rfl

end Index

end SymbolAtlas

------------------------------------------------------------
-- Look-Ups
------------------------------------------------------------

namespace SymbolAtlas

/- The sessions differ at most in what there is to save. -/
structure Session.SameScans (s t : Session) : Prop where
  cacheLoaded : t.cacheLoaded = s.cacheLoaded
  refreshed : t.refreshed = s.refreshed
  walks : t.walks = s.walks

theorem Session.SameScans.refl
    (s : Session) :
    s.SameScans s :=
  ⟨rfl, rfl, rfl⟩

namespace Index

variable {c : Context} {symbol : String} {i : Index}

/- An answer is no error, and scans nothing. -/
theorem answer_ok
    (c : Context)
    (symbol : String)
    (misses : Int)
    (entry : Option Entry)
    (i : Index) :
    ∃ value final,
      answer c symbol misses entry i = .ok value final ∧
      i.session.SameScans final.session := by
  unfold answer
  split
  · exact ⟨none, _, rfl, rfl, rfl, rfl⟩
  · cases entry with
    | none => exact ⟨none, i, rfl, .refl _⟩
    | some found =>
        dsimp only
        rw [Work.bind_of_ok (hit_eq symbol i)]
        refine ⟨some (Path.normal found.file), _, rfl, ?_⟩
        split
        · exact ⟨rfl, rfl, rfl⟩
        · exact .refl _

/-
  A look-up that rebuilds fails as the rebuild does, or answers
  after it.
-/
theorem lookup_scan_cases
    (hRescans : Rescans c i symbol) :
    (∃ error final,
      rebuild c i = .error error final ∧
      lookup c symbol i = .error error final) ∨
    ∃ final value after,
      rebuild c i = .ok () final ∧
      lookup c symbol i = .ok value after ∧
      final.session.SameScans after.session := by
  rw [lookup_of_maySearch hRescans.1]
  have hUpToDate := bringUpToDate_of_rescans hRescans
  cases hRebuild : rebuild c i with
  | error error final =>
      left
      rw [hRebuild] at hUpToDate
      exact ⟨error, final, rfl, Work.bind_of_error hUpToDate⟩
  | ok value final =>
      right
      rw [hRebuild] at hUpToDate
      rw [Work.bind_of_ok hUpToDate]
      rcases answer_ok c symbol
          ((i.known.missing.get? symbol).getD 0)
          (final.known.symbols.get? symbol) final.dirtied with
        ⟨answered, after, hAnswer, hSame⟩
      exact ⟨final, answered, after, rfl, hAnswer,
        hSame.cacheLoaded, hSame.refreshed, hSame.walks⟩

/- Any other look-up scans at most one file and its rivals. -/
theorem sameScans_lookup
    (hRescans : ¬ Rescans c i symbol) :
    i.session.SameScans
      (Work.stateAfter (lookup c symbol i)).session := by
  by_cases hSearch : MaySearch c i symbol
  · rw [lookup_of_maySearch hSearch]
    by_cases hRenews : ∃ entry, Renews c i symbol entry
    · rcases hRenews with ⟨entry, hRenews⟩
      have hUpToDate := bringUpToDate_of_renews hRenews
      have hUpdate := session_update c entry.file i
      cases hRun : update c entry.file i with
      | error error final =>
          rw [hRun] at hUpToDate hUpdate
          rw [Work.bind_of_error hUpToDate]
          change final.session = i.session at hUpdate
          rw [Work.stateAfter_error, hUpdate]
          exact .refl _
      | ok value final =>
          rw [hRun] at hUpToDate hUpdate
          rw [Work.bind_of_ok hUpToDate]
          change final.session = i.session at hUpdate
          rcases answer_ok c symbol
              ((i.known.missing.get? symbol).getD 0)
              (final.known.symbols.get? symbol) final.dirtied with
            ⟨answered, after, hAnswer, hSame⟩
          rw [hAnswer, Work.stateAfter_ok, ← hUpdate]
          exact ⟨hSame.cacheLoaded, hSame.refreshed, hSame.walks⟩
    · rw [Work.bind_of_ok (bringUpToDate_otherwise hSearch hRescans
        fun entry hEntry => hRenews ⟨entry, hEntry⟩)]
      rcases answer_ok c symbol
          ((i.known.missing.get? symbol).getD 0)
          (i.known.symbols.get? symbol) i with
        ⟨answered, after, hAnswer, hSame⟩
      rw [hAnswer]
      exact hSame
  · rw [lookup_of_not_maySearch hSearch]
    split
    · exact .refl _
    · rcases answer_ok c symbol
          ((i.known.missing.get? symbol).getD 0)
          (i.known.symbols.get? symbol) i with
        ⟨answered, after, hAnswer, hSame⟩
      rw [hAnswer]
      exact hSame

end Index

end SymbolAtlas
