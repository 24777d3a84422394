import SymbolAtlas.Proofs.Loader.Phases

/-
  Calls of a loader, whatever their outcome.

  A call that scans everything leaves a symbol with its file if
  the scan succeeds. All other calls leave the file alone. The
  artifact is only written after a scan that succeeded, or when
  the loader is closed.

  Key definitions:
    * `Loader.Call`, `Loader.Call.after`
    * `Loader.Outcome`
  Key theorems:
    * `Loader.outcome_of_call`
-/

------------------------------------------------------------
-- Calls
------------------------------------------------------------

namespace SymbolAtlas

namespace Loader

/- What can be asked of a loader. -/
inductive Call where
  | resolve (symbol : String)
  | autoload (symbol : String)
  | listing
  | refresh
  | rebuild
  | close
deriving DecidableEq, Repr

/- The work of a call; its answer does not matter here. -/
def Call.run : Call → Work Unit
| .resolve symbol => do
    let _ ← Loader.resolve symbol
| .autoload symbol => Loader.autoload symbol
| .listing => do
    let _ ← Loader.listing
| .refresh => Loader.refresh
| .rebuild => Loader.rebuild
| .close => Loader.close

/- The loader after a call, whatever its outcome. -/
def Call.after (l : Loader) (call : Call) : Loader :=
  Work.stateAfter (call.run l)

/- A loader that was not asked yet, or one at work. -/
def Ready
    (s : Store)
    (place : Place)
    (content : ByteArray)
    (symbol : String)
    (entry : Entry)
    (l : Loader) : Prop :=
  Fresh s place content l ∨ Sound s place symbol entry l

/-
  What a call has done: the loader is ready for the next one,
  the artifact was left alone or written, and there was a scan
  or none.
-/
structure Outcome
    (s : Store)
    (place : Place)
    (content : ByteArray)
    (symbol : String)
    (entry : Entry)
    (call : Call)
    (l m : Loader) : Prop where
  ready : Ready s place content symbol entry m
  artifact :
    (∀ other, s.Holds l.desk.disk place other →
      s.Holds m.desk.disk place other) ∨
    s.Holds m.desk.disk place m.index.known.artifact.toUTF8 ∧
      m.index.session.cacheLoaded = true ∧
      (call = .close ∨ Keeps symbol entry m)
  scans :
    Scans symbol entry l m (∃ error, call.run l = .error error m)

end Loader

end SymbolAtlas

------------------------------------------------------------
-- Beginnings and Ends
------------------------------------------------------------

namespace SymbolAtlas

namespace Loader

variable {l m n : Loader} {s : Store} {place : Place}
variable {symbol : String} {entry : Entry}
variable {content : ByteArray} {k : Snapshot}

theorem Fresh.keeps
    (hFresh : Fresh s place content l) :
    Keeps symbol entry l := by
  intro hLoaded
  rw [hFresh.index] at hLoaded
  cases hLoaded

/-
  A load makes a loader sound and keeps the symbol where it is,
  or nothing happens.
-/
theorem loadCache_cases
    (hReady : Ready s place content symbol entry l)
    (hSteady : Steady s symbol entry l)
    (hArtifact : Snapshot.ofArtifact content = .ok k)
    (hConsistent : k.IsConsistent)
    (hEntry : k.symbols.get? symbol = some entry) :
    (∃ m,
      loadCache l = .ok () m ∧ SameDesk l m ∧
      Sound s place symbol entry m ∧ m.walks = l.walks ∧
      (Keeps symbol entry l ↔ Keeps symbol entry m)) ∨
    ∃ error,
      loadCache l = .error error l := by
  rcases hReady with hFresh | hSound
  · rcases loadCache_of_fresh hFresh hSteady hArtifact with
      ⟨m, hLoad, hSame, hIndex⟩ | hError
    · left
      have hMaps : m.index.known.Maps entry.file symbol := by
        rw [hIndex]
        exact ⟨entry.mtime, hEntry⟩
      refine ⟨m, hLoad, hSame, ?_, ?_, ?_⟩
      · refine ⟨by rw [hIndex], ?_, ?_, Or.inl hMaps⟩
        · rw [hSame.disk]
          exact ⟨content, hFresh.holds⟩
        · rw [hIndex]
          exact Snapshot.allAt_of_isConsistent hConsistent hEntry
      · unfold walks
        rw [hIndex, hFresh.index]
      · exact iff_of_true hFresh.keeps fun _ => hMaps
    · exact Or.inr hError
  · left
    exact ⟨l, loadCache_of_loaded hSound.cacheLoaded, .refl l,
      hSound, rfl, Iff.rfl⟩

/- Only the index and the disk matter. -/
theorem Sound.congr
    (hSound : Sound s place symbol entry m)
    (hHolds : ∃ other, s.Holds n.desk.disk place other)
    (hKnown : n.index.known = m.index.known)
    (hSession :
      m.index.session.SameScans n.index.session) :
    Sound s place symbol entry n := by
  refine ⟨?_, hHolds, ?_, ?_⟩
  · exact hSession.cacheLoaded.trans hSound.cacheLoaded
  · rw [hKnown]
    exact hSound.allAt
  · rw [hKnown, hSession.refreshed]
    exact hSound.kept

/- The artifact is left alone, or what is known is written. -/
def Writes (s : Store) (place : Place) (n m : Loader) : Prop :=
  (∀ other, s.Holds n.desk.disk place other →
    s.Holds m.desk.disk place other) ∨
  s.Holds m.desk.disk place m.index.known.artifact.toUTF8

/- What a loader does last: it saves, and all is saved. -/
theorem saved_cases
    (hSteady : Steady s symbol entry n)
    (hSound : Sound s place symbol entry n)
    (hSaved :
      Work.stateAfter ((save >>= fun _ => markClean) n) = m) :
    Sound s place symbol entry m ∧
    m.index.known = n.index.known ∧
    n.index.session.SameScans m.index.session ∧
    Writes s place n m := by
  rcases hSound.holds with ⟨content, hHolds⟩
  rcases save_cases hSteady hHolds with
    ⟨desk, hSave, hAfter⟩ | ⟨error, desk, hSave, hAfter⟩
  · rw [Work.bind_of_ok hSave] at hSaved
    subst hSaved
    exact ⟨hSound.congr ⟨_, hAfter⟩ rfl ⟨rfl, rfl, rfl⟩, rfl,
      ⟨rfl, rfl, rfl⟩, Or.inr hAfter⟩
  · rw [Work.bind_of_error hSave] at hSaved
    subst hSaved
    refine ⟨hSound.congr ⟨_, hAfter⟩ rfl (.refl _), rfl, .refl _,
      Or.inl ?_⟩
    intro other hOther
    rw [hOther.content_eq hHolds]
    exact hAfter

end Loader

end SymbolAtlas

------------------------------------------------------------
-- Outcomes
------------------------------------------------------------

namespace SymbolAtlas

namespace Loader

variable {l m n : Loader} {s : Store} {place : Place}
variable {symbol : String} {entry : Entry}
variable {content : ByteArray} {k : Snapshot}

/- Nothing has happened. -/
theorem outcome_refl
    {call : Call}
    (hReady : Ready s place content symbol entry l) :
    Outcome s place content symbol entry call l l :=
  ⟨hReady, Or.inl fun _ hOther => hOther,
    Or.inl ⟨rfl, Iff.rfl⟩⟩

theorem Scans.of_loaded
    {failed : Prop}
    (hScans : Scans symbol entry m n failed)
    (hWalks : m.walks = l.walks)
    (hKeeps : Keeps symbol entry l ↔ Keeps symbol entry m) :
    Scans symbol entry l n failed := by
  unfold Scans at hScans ⊢
  rw [hWalks, ← hKeeps] at hScans
  exact hScans

theorem Scans.mono
    {failed other : Prop}
    (hScans : Scans symbol entry l m failed)
    (hImp : failed → other) :
    Scans symbol entry l m other :=
  hScans.imp_right fun hScan => ⟨hScan.1, hScan.2.imp_right hImp⟩

/- All is scanned, and saved if that succeeds. -/
theorem outcome_of_scan
    {call : Call}
    {i : Index}
    (hSteady : Steady s symbol entry l)
    (hHolds : ∃ other, s.Holds l.desk.disk place other)
    (hSame : SameDesk l m)
    (hLoaded : i.session.cacheLoaded = true)
    (hWalks : i.session.walks = l.walks)
    (hKnown :
      i.known.Maps entry.file symbol ∨
      ∃ missing, i.known = ⟨.empty, missing, .empty⟩)
    (hRun :
      call.run l =
        match Index.rebuild m.context i with
        | .error error final => .error error (m.withIndex final)
        | .ok _ final =>
            (save >>= fun _ => markClean) (m.withIndex final)) :
    Outcome s place content symbol entry call l
      (call.after l) := by
  have hSteadyToo := hSteady.of_sameDesk hSame
  rw [← hSame.disk] at hHolds
  have hRebuilt := sound_rebuilt hSteadyToo hHolds hLoaded
  have hCounted := walks_rebuilt m i
  rw [hWalks] at hCounted
  unfold Call.after
  cases hRebuild : Index.rebuild m.context i with
  | error error final =>
      rw [hRebuild] at hRun hRebuilt hCounted
      refine ⟨?_, ?_, ?_⟩
      · rw [hRun]
        exact Or.inr hRebuilt
      · rw [hRun]
        left
        intro other hOther
        rw [← hSame.disk] at hOther
        exact hOther
      · rw [hRun]
        exact Or.inr ⟨hCounted, Or.inr ⟨error, rfl⟩⟩
  | ok value final =>
      rw [hRebuild] at hRun hRebuilt hCounted
      have hMaps :=
        Index.maps_of_rebuild hSteadyToo.right hKnown hRebuild
      have hSteadyFinal :
          Steady s symbol entry (m.withIndex final) :=
        hSteadyToo.of_sameDesk (sameDesk_withIndex m final)
      rcases saved_cases hSteadyFinal hRebuilt
          (congrArg Work.stateAfter hRun).symm with
        ⟨hSound, hKnownToo, hSession, hWrites⟩
      have hKeeps :
          Keeps symbol entry (Work.stateAfter (call.run l)) := by
        rw [hSound.keeps_iff, hKnownToo]
        exact hMaps
      refine ⟨Or.inr hSound, ?_, Or.inr ⟨?_, Or.inl hKeeps⟩⟩
      · rcases hWrites with hAlone | hWritten
        · left
          intro other hOther
          rw [← hSame.disk] at hOther
          exact hAlone other hOther
        · exact Or.inr ⟨hWritten, hSound.cacheLoaded,
            Or.inr hKeeps⟩
      · exact hSession.walks.trans hCounted

section Loads

variable (hReady : Ready s place content symbol entry l)
variable (hSteady : Steady s symbol entry l)
variable (hArtifact : Snapshot.ofArtifact content = .ok k)
variable (hConsistent : k.IsConsistent)
variable (hEntry : k.symbols.get? symbol = some entry)

include hReady hSteady hArtifact hConsistent hEntry

/- A look-up, whatever is done with its answer. -/
theorem outcome_of_resolve
    {call : Call}
    {name : String}
    {next : Option String → Work Unit}
    (hRun : call.run = Loader.resolve name >>= next)
    (hNext :
      ∀ value m, ∃ loaded,
        next value m = .ok () { m with loaded := loaded }) :
    Outcome s place content symbol entry call l
      (call.after l) := by
  have hResolve :
      call.run l =
        (loadCache >>= fun _ =>
          onIndex (fun c => Index.lookup c name) >>= next) l := by
    rw [hRun]
    unfold Loader.resolve
    rw [bind_assoc]
  unfold Call.after
  rcases loadCache_cases hReady hSteady hArtifact hConsistent
      hEntry with
    ⟨m, hLoad, hSame, hSound, hWalks, hKeeps⟩ | ⟨error, hLoad⟩
  · rw [Work.bind_of_ok hLoad] at hResolve
    have hCases :=
      lookup_cases (hSteady.of_sameDesk hSame) hSound name
    have hHolds :
        ∀ other, s.Holds l.desk.disk place other →
          s.Holds m.desk.disk place other := by
      intro other hOther
      rw [hSame.disk]
      exact hOther
    cases hLookup : Index.lookup m.context name m.index with
    | error error final =>
        have hIndex :
            onIndex (fun c => Index.lookup c name) m =
              .error error (m.withIndex final) :=
          onIndex_of_error hLookup
        rw [Work.bind_of_error hIndex] at hResolve
        rw [hLookup] at hCases
        refine ⟨?_, ?_, ?_⟩
        · rw [hResolve]
          exact Or.inr hCases.1
        · rw [hResolve]
          exact Or.inl hHolds
        · rw [hResolve]
          exact (hCases.2.of_loaded hWalks hKeeps).mono
            fun _ => ⟨error, rfl⟩
    | ok value final =>
        have hIndex :
            onIndex (fun c => Index.lookup c name) m =
              .ok value (m.withIndex final) :=
          onIndex_of_ok hLookup
        rcases hNext value (m.withIndex final) with
          ⟨loaded, hLoaded⟩
        rw [Work.bind_of_ok hIndex, hLoaded] at hResolve
        rw [hLookup] at hCases
        refine ⟨?_, ?_, ?_⟩
        · rw [hResolve]
          exact Or.inr (hCases.1.congr hCases.1.holds rfl
            (.refl _))
        · rw [hResolve]
          exact Or.inl hHolds
        · rw [hResolve]
          refine (hCases.2.of_loaded hWalks hKeeps).mono ?_
          rintro ⟨_, _, hError⟩
          cases hError
  · rw [Work.bind_of_error hLoad] at hResolve
    rw [hResolve]
    exact outcome_refl hReady

theorem outcome_listing :
    Outcome s place content symbol entry .listing l
      (Call.listing.after l) := by
  have hListing :
      Call.listing.run l =
        (loadCache >>= fun _ => pure ()) l := by
    change (Loader.listing >>= fun _ => pure ()) l = _
    unfold Loader.listing
    rw [bind_assoc]
    cases hLoad : loadCache l with
    | ok value m =>
        rw [Work.bind_of_ok hLoad, Work.bind_of_ok hLoad]
        rfl
    | error error m =>
        rw [Work.bind_of_error hLoad, Work.bind_of_error hLoad]
  unfold Call.after
  rcases loadCache_cases hReady hSteady hArtifact hConsistent
      hEntry with
    ⟨m, hLoad, hSame, hSound, hWalks, hKeeps⟩ | ⟨error, hLoad⟩
  · rw [Work.bind_of_ok hLoad] at hListing
    rw [hListing]
    refine ⟨Or.inr hSound, Or.inl ?_, Or.inl ⟨hWalks, hKeeps⟩⟩
    intro other hOther
    change s.Holds m.desk.disk place other
    rw [hSame.disk]
    exact hOther
  · rw [Work.bind_of_error hLoad] at hListing
    rw [hListing]
    exact outcome_refl hReady

/- The index is scanned and saved if it was not scanned yet. -/
theorem outcome_refresh :
    Outcome s place content symbol entry .refresh l
      (Call.refresh.after l) := by
  have hGet : ∀ m : Loader, (get : Work Loader) m = .ok m m :=
    fun _ => rfl
  have hRefresh :
      Call.refresh.run l =
        (loadCache >>= fun _ => get >>= fun m =>
          if !m.index.session.refreshed then
            onIndex Index.rebuild >>= fun _ =>
              save >>= fun _ => markClean
          else pure ()) l :=
    rfl
  rcases loadCache_cases hReady hSteady hArtifact hConsistent
      hEntry with
    ⟨m, hLoad, hSame, hSound, hWalks, hKeeps⟩ | ⟨error, hLoad⟩
  · rw [Work.bind_of_ok hLoad, Work.bind_of_ok (hGet m)]
      at hRefresh
    cases hRefreshed : m.index.session.refreshed with
    | true =>
        rw [hRefreshed] at hRefresh
        have hAfter : Call.refresh.after l = m := by
          unfold Call.after
          rw [hRefresh]
          rfl
        rw [hAfter]
        refine ⟨Or.inr hSound, Or.inl ?_,
          Or.inl ⟨hWalks, hKeeps⟩⟩
        intro other hOther
        rw [hSame.disk]
        exact hOther
    | false =>
        rw [hRefreshed] at hRefresh
        have hMaps : m.index.known.Maps entry.file symbol := by
          rcases hSound.kept with hMaps | hNot
          · exact hMaps
          · rw [hRefreshed] at hNot
            cases hNot
        have hHolds := hSound.holds
        rw [hSame.disk] at hHolds
        refine outcome_of_scan hSteady hHolds hSame
          hSound.cacheLoaded hWalks (Or.inl hMaps) ?_
        rw [hRefresh]
        change (onIndex Index.rebuild >>= fun _ =>
          save >>= fun _ => markClean) m = _
        cases hRebuild : Index.rebuild m.context m.index with
        | error error final =>
            rw [Work.bind_of_error (onIndex_of_error hRebuild)]
        | ok value final =>
            rw [Work.bind_of_ok (onIndex_of_ok hRebuild)]
  · rw [Work.bind_of_error hLoad] at hRefresh
    unfold Call.after
    rw [hRefresh]
    exact outcome_refl hReady

end Loads

theorem Ready.holds
    (hReady : Ready s place content symbol entry l) :
    ∃ other, s.Holds l.desk.disk place other := by
  rcases hReady with hFresh | hSound
  · exact ⟨content, hFresh.holds⟩
  · exact hSound.holds

/- All is forgotten and scanned, and saved if that succeeds. -/
theorem outcome_rebuild
    (hReady : Ready s place content symbol entry l)
    (hSteady : Steady s symbol entry l) :
    Outcome s place content symbol entry .rebuild l
      (Call.rebuild.after l) := by
  let m : Loader :=
    l.withIndex
      { l.index with
        session := { l.index.session with cacheLoaded := true } }
  let i : Index := m.index.withoutFiles .empty
  have hSame : SameDesk l m := sameDesk_withIndex l _
  refine outcome_of_scan (i := i) hSteady hReady.holds hSame rfl
    rfl (Or.inr ⟨_, rfl⟩) ?_
  have hMarked : markLoaded l = .ok () m := rfl
  have hGet : ∀ n : Loader, (get : Work Loader) n = .ok n n :=
    fun _ => rfl
  change Loader.rebuild l = _
  unfold Loader.rebuild build
  rw [Work.bind_of_ok hMarked, bind_assoc]
  cases hRebuild : Index.rebuild m.context i with
  | error error final =>
      have hCleared :
          onIndex (fun c => do Index.clear; Index.rebuild c) m =
            .error error (m.withIndex final) :=
        onIndex_of_error hRebuild
      rw [Work.bind_of_error hCleared]
  | ok value final =>
      have hCleared :
          onIndex (fun c => do Index.clear; Index.rebuild c) m =
            .ok value (m.withIndex final) :=
        onIndex_of_ok hRebuild
      have hSome :
          (m.withIndex final).settings.cacheDir.isSome = true :=
        hSteady.cacheDir_isSome
      rw [Work.bind_of_ok hCleared, bind_assoc,
        Work.bind_of_ok (hGet _), pure_bind,
        Work.bind_of_ok (hGet _), if_pos hSome]

/-
  What is known is saved if there is something to save. Nothing
  is scanned.
-/
theorem outcome_close
    (hReady : Ready s place content symbol entry l)
    (hSteady : Steady s symbol entry l) :
    Outcome s place content symbol entry .close l
      (Call.close.after l) ∧
    (Call.close.after l).walks = l.walks := by
  have hGet : (get : Work Loader) l = .ok l l := rfl
  have hClose :
      Call.close.run l =
        if l.index.session.dirty = true then
          (save >>= fun _ => markClean) l
        else markClean l := by
    change Loader.close l = _
    unfold Loader.close
    rw [Work.bind_of_ok hGet, hSteady.cacheDir_isSome,
      Bool.and_true]
    split <;> rfl
  unfold Call.after
  cases hDirty : l.index.session.dirty with
  | false =>
      rw [hDirty, if_neg (by simp)] at hClose
      rw [hClose]
      refine ⟨⟨?_, Or.inl fun _ hOther => hOther,
        Or.inl ⟨rfl, Iff.rfl⟩⟩, rfl⟩
      rcases hReady with hFresh | hSound
      · left
        refine ⟨?_, hFresh.holds⟩
        change ({ l.index with
          session := { l.index.session with dirty := false }
          notices := [] } : Index) = {}
        rw [hFresh.index]
      · right
        exact hSound.congr hSound.holds rfl ⟨rfl, rfl, rfl⟩
  | true =>
      rw [hDirty, if_pos rfl] at hClose
      have hSound : Sound s place symbol entry l := by
        rcases hReady with hFresh | hSound
        · rw [hFresh.index] at hDirty
          cases hDirty
        · exact hSound
      rcases saved_cases hSteady hSound
          (congrArg Work.stateAfter hClose).symm with
        ⟨hAfter, hKnown, hSession, hWrites⟩
      refine ⟨⟨Or.inr hAfter, ?_, Or.inl ⟨hSession.walks, ?_⟩⟩,
        hSession.walks⟩
      · rcases hWrites with hAlone | hWritten
        · exact Or.inl hAlone
        · exact Or.inr ⟨hWritten, hAfter.cacheLoaded,
            Or.inl rfl⟩
      · rw [hSound.keeps_iff, hAfter.keeps_iff, hKnown]

/- Every call leaves a loader that is ready for the next one. -/
theorem outcome_of_call
    (hReady : Ready s place content symbol entry l)
    (hSteady : Steady s symbol entry l)
    (hArtifact : Snapshot.ofArtifact content = .ok k)
    (hConsistent : k.IsConsistent)
    (hEntry : k.symbols.get? symbol = some entry)
    (call : Call) :
    Outcome s place content symbol entry call l
      (call.after l) := by
  cases call with
  | resolve name =>
      exact outcome_of_resolve hReady hSteady hArtifact hConsistent
        hEntry rfl fun _ m => ⟨m.loaded, rfl⟩
  | autoload name =>
      refine outcome_of_resolve hReady hSteady hArtifact
        hConsistent hEntry rfl ?_
      intro value m
      cases value with
      | none => exact ⟨m.loaded, rfl⟩
      | some path => exact ⟨m.loaded ++ [path], rfl⟩
  | listing =>
      exact outcome_listing hReady hSteady hArtifact hConsistent
        hEntry
  | refresh =>
      exact outcome_refresh hReady hSteady hArtifact hConsistent
        hEntry
  | rebuild => exact outcome_rebuild hReady hSteady
  | close => exact (outcome_close hReady hSteady).1

end Loader

end SymbolAtlas
