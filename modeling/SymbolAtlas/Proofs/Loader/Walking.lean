import SymbolAtlas.Proofs.Loader.Mirror

/-
  How often a loader scans everything.

  A cache that is missing, a refresh and a look-up that finds
  nothing can each make a loader scan everything. Two marks of
  the session keep them from doing it again after each other: a
  loader that has scanned everything once has its cache and is
  refreshed. So it scans everything at most once unless it is
  told to, and never after any such scan.

  Key definitions:
    * `Loader.Walked`, `Loader.WalkedOnce`
    * `Loader.History`
  Key theorems:
    * `Loader.ends_walked_loadCache`, `Loader.ends_walked_lookup`
    * `Loader.ends_walked_action`
    * `Loader.at_most_one_unasked_walk`
-/

------------------------------------------------------------
-- Scans That Are Counted
------------------------------------------------------------

namespace SymbolAtlas

namespace Loader

/-
  Everything was scanned so many times. After the first time the
  loader has its cache and is refreshed.
-/
structure Walked (n : Nat) (l : Loader) : Prop where
  walks : l.walks = n
  loaded : 0 < n → l.index.IsLoaded
  refreshed : 0 < n → l.index.session.refreshed = true

/- There was no further scan, or it was the very first one. -/
def WalkedOnce (n : Nat) (l : Loader) : Prop :=
  Walked n l ∨ n = 0 ∧ Walked 1 l

/- The same, for a loader that has its cache. -/
def WalkedLoaded (n : Nat) (l : Loader) : Prop :=
  WalkedOnce n l ∧ l.index.IsLoaded

variable {n : Nat} {l m : Loader}

theorem Walked.of_sameScans
    (hWalked : Walked n l)
    (hSame : l.index.session.SameScans m.index.session) :
    Walked n m :=
  ⟨hSame.walks.trans hWalked.walks,
    fun hSome => hSame.cacheLoaded.trans (hWalked.loaded hSome),
    fun hSome => hSame.refreshed.trans (hWalked.refreshed hSome)⟩

theorem WalkedOnce.of_sameScans
    (hOnce : WalkedOnce n l)
    (hSame : l.index.session.SameScans m.index.session) :
    WalkedOnce n m :=
  hOnce.imp (fun hWalked => hWalked.of_sameScans hSame)
    fun hFirst => ⟨hFirst.1, hFirst.2.of_sameScans hSame⟩

theorem WalkedLoaded.of_sameScans
    (hOnce : WalkedLoaded n l)
    (hSame : l.index.session.SameScans m.index.session) :
    WalkedLoaded n m :=
  ⟨hOnce.1.of_sameScans hSame,
    hSame.cacheLoaded.trans hOnce.2⟩

/- Nothing was scanned if the loader is not refreshed. -/
theorem WalkedOnce.eq_zero
    (hOnce : WalkedOnce n l)
    (hNot : l.index.session.refreshed = false) :
    n = 0 ∧ l.walks = 0 := by
  have hNone {k : Nat} (hWalked : Walked k l) : k = 0 := by
    by_contra hSome
    have hRefreshed := hWalked.refreshed (by omega)
    rw [hNot] at hRefreshed
    cases hRefreshed
  rcases hOnce with hWalked | ⟨-, hWalked⟩
  · cases hNone hWalked
    exact ⟨rfl, hWalked.walks⟩
  · cases hNone hWalked

end Loader

end SymbolAtlas

------------------------------------------------------------
-- Loading the Cache
------------------------------------------------------------

namespace SymbolAtlas

namespace Loader

variable {n : Nat} {P : Session → Prop}

/- Work on the desk leaves the session alone. -/
theorem ends_session_onDesk
    {α : Type}
    (w : Desk.Work α) :
    Work.Ends (fun l => P l.index.session) (onDesk w)
      fun _ l => P l.index.session := by
  intro l value m hSession hRun
  rcases exists_of_onDesk_eq_ok hRun with ⟨desk, -, rfl⟩
  exact hSession

/- What the settings lead to is found without any change. -/
theorem ends_store_same
    {Q : Loader → Prop} :
    Work.Ends Q store fun _ => Q := by
  unfold store
  refine Work.ends_get.bind fun l => ?_
  split
  · exact Work.ends_throw _
  · split
    · exact Work.ends_throw _
    · exact Work.ends_pure fun _ hState => hState.2

theorem ends_session_save :
    Work.Ends (fun l => P l.index.session) save
      fun _ l => P l.index.session := by
  unfold save
  refine ends_store_same.bind fun s => ?_
  refine Work.ends_get.bind fun l => ?_
  exact (ends_session_onDesk _).of_imp fun _ hState => hState.2

/- A build counts one scan, and the loader is refreshed then. -/
theorem ends_session_build
    (s : Session) :
    Work.Ends (fun l => l.index.session = s) build
      fun _ l =>
        l.index.session =
          { s with refreshed := true, walks := s.walks + 1 } := by
  rintro l value m rfl hRun
  unfold build at hRun
  rcases Work.exists_of_bind_eq_ok hRun with
    ⟨_, middle, hScan, hGet⟩
  cases hGet
  rcases exists_of_onIndex_eq_ok hScan with ⟨i, hWork, rfl⟩
  rcases Work.exists_of_bind_eq_ok hWork with
    ⟨_, cleared, hClear, hRebuild⟩
  cases hClear
  have hSession := Index.session_of_rebuild hRebuild
  exact hSession

/- A load scans nothing, or builds once. -/
theorem ends_session_load
    (store : Store)
    (s : Session) :
    Work.Ends (fun l => l.index.session = s)
      (store.load Others.absent onDesk build)
      fun _ l =>
        l.index.session = s ∨
        l.index.session =
          { s with refreshed := true, walks := s.walks + 1 } := by
  unfold Store.load
  refine (ends_session_onDesk (P := fun t => t = s) _).bind
    fun found => ?_
  cases found with
  | inl k => exact Work.ends_pure fun _ hSession => Or.inl hSession
  | inr lock =>
      refine (ends_session_build s).bind fun k => ?_
      refine (ends_session_onDesk
        (P := fun t => t =
          { s with refreshed := true, walks := s.walks + 1 })
        _).bind fun _ => ?_
      exact Work.ends_pure fun _ hSession => Or.inr hSession

/- A loader without its cache has scanned nothing. -/
theorem WalkedOnce.eq_zero_of_not_loaded
    {l : Loader}
    (hOnce : WalkedOnce n l)
    (hNot : ¬ l.index.IsLoaded) :
    n = 0 ∧ l.walks = 0 := by
  rcases hOnce with hWalked | ⟨-, hWalked⟩
  · have hNone : n = 0 := by
      by_contra hSome
      exact hNot (hWalked.loaded (by omega))
    exact ⟨hNone, hWalked.walks.trans hNone⟩
  · exact absurd (hWalked.loaded Nat.one_pos) hNot

/- The cache is loaded, with at most one scan in all. -/
theorem ends_walked_loadCache :
    Work.Ends (WalkedOnce n) loadCache
      fun _ => WalkedLoaded n := by
  unfold loadCache
  refine Work.ends_get.bind fun l => ?_
  split
  · next hNot =>
    have hNotLoaded : ¬ l.index.IsLoaded := by
      simpa [Index.IsLoaded] using hNot
    rintro start value m ⟨rfl, hOnce⟩ hRun
    rcases hOnce.eq_zero_of_not_loaded hNotLoaded with ⟨rfl, hNone⟩
    have hLoad (s : Store) :
        Work.Ends (fun m => m.index.session = l.index.session)
          (s.load Others.absent onDesk build >>= fun k =>
            onIndex (fun _ => Index.restore k) >>= fun _ =>
              markLoaded)
          fun _ => WalkedLoaded 0 := by
      refine (ends_session_load s l.index.session).bind
        fun k => ?_
      rintro before value after hSession hMark
      cases hMark
      refine ⟨?_, rfl⟩
      rcases hSession with hSame | hBuilt
      · left
        refine ⟨?_, fun hSome => absurd hSome (by omega),
          fun hSome => absurd hSome (by omega)⟩
        change before.index.session.walks = 0
        rw [hSame]
        exact hNone
      · right
        refine ⟨rfl, ?_, fun _ => rfl, fun _ => ?_⟩
        · change before.index.session.walks = 1
          rw [hBuilt]
          exact congrArg (· + 1) hNone
        · change before.index.session.refreshed = true
          rw [hBuilt]
    exact (ends_store_same.bind hLoad) l value m rfl hRun
  · next hNot =>
    apply Work.ends_pure
    rintro state ⟨rfl, hOnce⟩
    exact ⟨hOnce, by simpa [Index.IsLoaded] using hNot⟩

end Loader

end SymbolAtlas

------------------------------------------------------------
-- Actions
------------------------------------------------------------

namespace SymbolAtlas

namespace Loader

variable {n : Nat}

/- A scan of a loader that is not refreshed is the first one. -/
theorem WalkedLoaded.rebuilt
    {l : Loader}
    {i final : Index}
    (hOnce : WalkedLoaded n l)
    (hNot : l.index.session.refreshed = false)
    (hRebuild : Index.rebuild l.context l.index = .ok () final)
    (hSame : final.session.SameScans i.session) :
    WalkedLoaded n (l.withIndex i) := by
  rcases hOnce.1.eq_zero hNot with ⟨rfl, hNone⟩
  rw [Index.session_of_rebuild hRebuild] at hSame
  have hLoaded : (l.withIndex i).index.IsLoaded :=
    hSame.cacheLoaded.trans hOnce.2
  refine ⟨Or.inr ⟨rfl, ?_, fun _ => hLoaded,
    fun _ => hSame.refreshed⟩, hLoaded⟩
  exact hSame.walks.trans (congrArg (· + 1) hNone)

theorem ends_walked_lookup
    (symbol : String) :
    Work.Ends (WalkedLoaded n)
      (onIndex fun c => Index.lookup c symbol)
      fun _ => WalkedLoaded n := by
  intro l value m hOnce hRun
  rcases exists_of_onIndex_eq_ok hRun with ⟨i, hLookup, rfl⟩
  by_cases hRescans : Index.Rescans l.context l.index symbol
  · rcases Index.lookup_scan_cases hRescans with
      ⟨error, final, -, hError⟩ |
      ⟨final, other, after, hRebuild, hAnswer, hSame⟩
    · rw [hLookup] at hError
      cases hError
    · rw [hLookup] at hAnswer
      cases hAnswer
      exact hOnce.rebuilt hRescans.2.2 hRebuild hSame
  · have hSame := Index.sameScans_lookup hRescans
    rw [hLookup, Work.stateAfter_ok] at hSame
    exact hOnce.of_sameScans hSame

theorem ends_walked_resolve
    (symbol : String) :
    Work.Ends (WalkedOnce n) (resolve symbol)
      fun _ => WalkedLoaded n :=
  ends_walked_loadCache.bind fun _ => ends_walked_lookup symbol

theorem ends_walked_autoload
    (symbol : String) :
    Work.Ends (WalkedOnce n) (autoload symbol)
      fun _ => WalkedOnce n := by
  refine (ends_walked_resolve symbol).bind fun found => ?_
  cases found with
  | none => exact Work.ends_pure fun _ hOnce => hOnce.1
  | some path =>
      exact Work.ends_modify fun _ hOnce =>
        hOnce.1.of_sameScans (.refl _)

theorem ends_walked_register
    (chain : List Hook)
    (atFront : Bool) :
    Work.Ends (WalkedOnce n) (register chain atFront)
      fun _ => WalkedOnce n := by
  have hFile (file : String) :
      Work.Ends (WalkedOnce n) (autoloadFile file)
        fun _ => WalkedOnce n := by
    unfold autoloadFile
    refine Work.ends_get.bind fun l => ?_
    cases l.settings.resolvePath l.desk.disk file with
    | error error => exact Work.ends_throw error
    | ok path =>
        dsimp only
        split
        · exact (ends_walked_autoload _).of_imp
            fun _ hState => hState.2
        · exact Work.ends_pure fun _ hState => hState.2
  unfold register
  refine Work.ends_get.bind fun l => ?_
  have hFiles :
      Work.Ends (WalkedOnce n)
        (l.settings.files.forM autoloadFile)
        fun _ => WalkedOnce n :=
    Work.Ends.forM fun file _ => hFile file
  refine (hFiles.of_imp fun _ hState => hState.2).bind
    fun _ => ?_
  exact Work.ends_pure fun _ hOnce => hOnce

/- Marks change nothing that counts here. -/
theorem ends_walked_markClean :
    Work.Ends (WalkedOnce n) markClean
      fun _ => WalkedOnce n := by
  intro l value m hOnce hRun
  cases hRun
  exact hOnce.of_sameScans ⟨rfl, rfl, rfl⟩

theorem ends_walked_save :
    Work.Ends (WalkedOnce n) save fun _ => WalkedOnce n := by
  intro l value m hOnce hRun
  have hSession : m.index.session = l.index.session :=
    ends_session_save (P := fun t => t = l.index.session)
      l value m rfl hRun
  apply hOnce.of_sameScans
  rw [hSession]
  exact .refl _

theorem ends_walked_refresh :
    Work.Ends (WalkedOnce n) refresh fun _ => WalkedOnce n := by
  unfold refresh
  refine ends_walked_loadCache.bind fun _ => ?_
  refine Work.ends_get.bind fun l => ?_
  split
  · next hNot =>
    have hScan :
        Work.Ends (fun m => l = m ∧ WalkedLoaded n m)
          (onIndex Index.rebuild) fun _ => WalkedOnce n := by
      rintro start value m ⟨rfl, hOnce⟩ hRun
      rcases exists_of_onIndex_eq_ok hRun with
        ⟨i, hRebuild, rfl⟩
      exact (hOnce.rebuilt (by simpa using hNot) hRebuild
        (.refl _)).1
    refine hScan.bind fun _ => ?_
    exact ends_walked_save.bind fun _ => ends_walked_markClean
  · exact Work.ends_pure fun _ hState => hState.2.1

theorem ends_walked_close :
    Work.Ends (WalkedOnce n) close fun _ => WalkedOnce n := by
  unfold close
  refine Work.ends_get.bind fun l => ?_
  dsimp only
  split
  · refine (ends_walked_save.of_imp fun _ hState =>
      hState.2).bind fun _ => ?_
    exact ends_walked_markClean
  · exact ends_walked_markClean.of_imp fun _ hState => hState.2

/-
  Whatever is not a rebuild scans everything at most once, and
  only if that was never done.
-/
theorem ends_walked_action
    {action : Action}
    (hAction : action ≠ .ask .rebuild) :
    Work.Ends (WalkedOnce n) action.run
      fun _ => WalkedOnce n := by
  have hOnly {α : Type} {w : Work α}
      (hWork : Work.Ends (WalkedOnce n) w
        fun _ => WalkedOnce n) :
      Work.Ends (WalkedOnce n) (w >>= fun _ => pure ())
        fun _ => WalkedOnce n :=
    hWork.bind fun _ => Work.ends_pure fun _ hOnce => hOnce
  cases action with
  | join chain atFront =>
      exact hOnly (ends_walked_register chain atFront)
  | ask call =>
      cases call with
      | resolve symbol =>
          exact hOnly ((ends_walked_resolve symbol).mono
            fun _ _ hOnce => hOnce.1)
      | autoload symbol => exact ends_walked_autoload symbol
      | listing =>
          refine hOnly (ends_walked_loadCache.bind fun _ => ?_)
          refine Work.ends_get.bind fun l => ?_
          exact Work.ends_pure fun _ hState => hState.2.1
      | refresh => exact ends_walked_refresh
      | rebuild => exact absurd rfl hAction
      | close => exact ends_walked_close

/- A rebuild scans everything once. -/
theorem ends_walked_rebuild :
    Work.Ends (Walked n) rebuild fun _ => Walked (n + 1) := by
  have hRest :
      Work.Ends (Walked (n + 1)) (do
        if (← get).settings.cacheDir.isSome then
          save
          markClean)
        fun _ => Walked (n + 1) := by
    have hOnly :
        Work.Ends (WalkedOnce (n + 1))
          (save >>= fun _ => markClean)
          fun _ => WalkedOnce (n + 1) :=
      ends_walked_save.bind fun _ => ends_walked_markClean
    refine Work.ends_get.bind fun l => ?_
    split
    · rintro start value m ⟨-, hWalked⟩ hRun
      exact (hOnly start value m (Or.inl hWalked) hRun).resolve_right
        fun hFirst => Nat.succ_ne_zero n hFirst.1
    · exact Work.ends_pure fun _ hState => hState.2
  intro l value m hWalked hRun
  unfold rebuild at hRun
  rcases Work.exists_of_bind_eq_ok hRun with
    ⟨_, marked, hMark, hBuilt⟩
  cases hMark
  rcases Work.exists_of_bind_eq_ok hBuilt with
    ⟨k, built, hBuild, hSaved⟩
  have hSession :=
    ends_session_build _ _ k built rfl hBuild
  apply hRest built value m _ hSaved
  refine ⟨?_, fun _ => ?_, fun _ => ?_⟩
  · unfold walks
    rw [hSession]
    exact congrArg (· + 1) hWalked.walks
  · unfold Index.IsLoaded
    rw [hSession]
    rfl
  · rw [hSession]

end Loader

end SymbolAtlas

------------------------------------------------------------
-- Histories
------------------------------------------------------------

namespace SymbolAtlas

namespace Loader

/-
  What a loader has gone through since it was the first: actions
  that succeed, and changes of the disk. Scans of everything
  within rebuilds are told from those within other actions.
-/
inductive History (first : Loader) :
    (own asked : Nat) → Loader → Prop
| begun : History first 0 0 first
| asked {own asked : Nat} {l m : Loader}
    (hBefore : History first own asked l)
    (hRun : (Action.ask .rebuild).run l = .ok () m) :
    History first own (asked + 1) m
| acted {own asked : Nat} {l m : Loader} (action : Action)
    (hBefore : History first own asked l)
    (hAction : action ≠ .ask .rebuild)
    (hRun : action.run l = .ok () m) :
    History first (own + (m.walks - l.walks)) asked m
| changed {own asked : Nat} {l : Loader}
    (hBefore : History first own asked l)
    (d : Disk) :
    History first own asked (l.onDisk d)

variable {own asked : Nat} {first last : Loader}

/- All scans are accounted for. -/
theorem History.walked
    (hHistory : History first own asked last)
    (hFirst : Walked 0 first) :
    own ≤ 1 ∧ Walked (own + asked) last := by
  induction hHistory with
  | begun => exact ⟨Nat.zero_le 1, hFirst⟩
  | asked hBefore hRun ih =>
      exact ⟨ih.1, ends_walked_rebuild _ () _ ih.2 hRun⟩
  | acted action hBefore hAction hRun ih =>
      rcases ih with ⟨hOwn, hWalked⟩
      rcases ends_walked_action hAction _ () _ (Or.inl hWalked)
          hRun with
        hStill | ⟨hNone, hOnce⟩
      · rw [hStill.walks, hWalked.walks, Nat.sub_self]
        exact ⟨hOwn, hStill⟩
      · -- This is the first scan, so nothing was counted before.
        obtain ⟨rfl, rfl⟩ := Nat.add_eq_zero_iff.mp hNone
        rw [hOnce.walks, hWalked.walks]
        exact ⟨Nat.le_refl 1, hOnce⟩
  | changed hBefore d ih =>
      exact ⟨ih.1, ih.2.of_sameScans (.refl _)⟩

/-
  As long as nothing fails, a loader scans everything at most
  once without being told to, whatever happens to the disk. All
  other scans are those of rebuilds, one each, and once anything
  has scanned everything, no action but a rebuild does.
-/
theorem at_most_one_unasked_walk
    {settings : Settings}
    {desk begun : Desk}
    (hStart : start settings desk = .ok first begun)
    (hHistory : History first own asked last) :
    own ≤ 1 ∧
    last.walks = own + asked ∧
    last.walks ≤ 1 + asked ∧
    ∀ {action : Action} {next : Loader},
      action ≠ .ask .rebuild →
      action.run last = .ok () next →
      0 < last.walks →
        next.walks = last.walks := by
  have hFirst : Walked 0 first := by
    refine ⟨?_, fun hSome => absurd hSome (by omega),
      fun hSome => absurd hSome (by omega)⟩
    unfold walks
    rw [index_of_start hStart]
  rcases hHistory.walked hFirst with ⟨hOwn, hWalked⟩
  refine ⟨hOwn, hWalked.walks, ?_, ?_⟩
  · rw [hWalked.walks]
    exact Nat.add_le_add_right hOwn asked
  · intro action next hAction hRun hSome
    rw [hWalked.walks] at hSome ⊢
    rcases ends_walked_action hAction last () next
        (Or.inl hWalked) hRun with
      hStill | ⟨hNone, -⟩
    · exact hStill.walks
    · omega

theorem Action.run_of_succeeds
    {l : Loader}
    {call : Call}
    (hSucceeds : call.succeeds l = true) :
    (Action.ask call).run l = .ok () (call.after l) :=
  Call.run_of_succeeds hSucceeds

theorem quiet_walks :
    (Call.resolve "B").succeeds
      ((newOn quietSettings quietDisk).onDisk
        (quietDisk.put ["x"] .newDirectory)) = true ∧
    quietMiss.walks = 1 ∧
    Call.refresh.succeeds quietMiss = true := by
  decide +kernel

/- A miss has scanned everything, so a refresh does not. -/
theorem quiet_loader_is_refreshed :
    quietMiss.walks = 1 ∧
    (Call.refresh.after quietMiss).walks = 1 := by
  rcases quiet_walks with ⟨hMiss, hOnce, hRefresh⟩
  have hStart :
      start quietSettings ⟨quietDisk, []⟩ =
        .ok (newOn quietSettings quietDisk) ⟨quietDisk, []⟩ := by
    refine @start_eq ["c"] _ _ ?_
    rintro path ⟨⟩
    exact quiet_directory.1
  have hBegun :
      History (newOn quietSettings quietDisk) 0 0
        (newOn quietSettings quietDisk) :=
    .begun
  have hChanged :=
    hBegun.changed (quietDisk.put ["x"] .newDirectory)
  obtain ⟨own, hMissed⟩ :
      ∃ own,
        History (newOn quietSettings quietDisk) own 0 quietMiss :=
    ⟨_, hChanged.acted (.ask (.resolve "B")) (by decide)
      (Action.run_of_succeeds hMiss)⟩
  rcases at_most_one_unasked_walk hStart hMissed with
    ⟨-, -, -, hNext⟩
  have hAction : Action.ask .refresh ≠ .ask .rebuild := by decide
  have hLast :=
    hNext hAction (Action.run_of_succeeds hRefresh) (by omega)
  exact ⟨hOnce, hLast.trans hOnce⟩

end Loader

end SymbolAtlas
