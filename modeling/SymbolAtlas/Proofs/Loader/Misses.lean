import SymbolAtlas.Proofs.Index.Counting
import SymbolAtlas.Proofs.Loader.Refreshing
import SymbolAtlas.Proofs.Loader.Walking
import SymbolAtlas.Proofs.Store.Building

/-
  How often a name is missed from one loader to the next.

  A loader counts the look-ups of a name that found nothing since
  it was last found or everything was rebuilt. The artifact
  carries the count to the next loader, which knows nothing
  before it has loaded its cache. So the count is exact for a
  loader that has loaded, and is in the artifact before that, as
  long as the settings lead to the same store.

  Key definitions:
    * `Loader.Call.tally`, `Loader.Missed`
    * `Loader.Counting`, `Loader.Reckoned`
  Key theorems:
    * `Loader.counting_of_loadCache`
    * `Loader.Reckoned.of_run`
    * `Loader.misses_are_exact`
    * `Loader.misses_start_anew`
-/

------------------------------------------------------------
-- Counting Calls
------------------------------------------------------------

namespace SymbolAtlas

namespace Loader

/-
  The misses in a row after the name itself was looked up. If it
  gives nothing, it has found nothing on its way either.
-/
def looked (name : String) (l : Loader) (k : Nat) : Nat :=
  match resolve name l with
  | .ok (some _) _ => 0
  | .ok none _ => k + 1
  | .error _ _ => k

/-
  How often a name was missed after a call, if it was missed so
  often before. A rebuild and whatever finds the name start anew.
-/
def Call.tally
    (name : String)
    (l : Loader)
    (k : Nat)
    (call : Call) : Nat :=
  let others :=
    if l.index.hasFound (call.after l).index name then 0 else k
  match call with
  | .rebuild => 0
  | .resolve symbol | .autoload symbol =>
      if symbol = name then looked name l k else others
  | _ => others

/-
  What loaders have gone through since the first one, and how
  often the name was missed: calls that succeed, changes of the
  disk elsewhere, and loaders that are closed while new ones are
  started with their settings.
-/
inductive Missed
    (s : Store)
    (place : Place)
    (name : String)
    (first : Loader) : Nat → Loader → Prop
| begun : Missed s place name first 0 first
| asked {k : Nat} {l m : Loader} (call : Call)
    (hBefore : Missed s place name first k l)
    (hRun : call.run l = .ok () m) :
    Missed s place name first (call.tally name l k) m
| changed {k : Nat} {l : Loader} {d : Disk}
    (hBefore : Missed s place name first k l)
    (hElsewhere : Elsewhere s place l d) :
    Missed s place name first k (l.onDisk d)
| reopened {k : Nat} {l closed m : Loader} {d : Disk}
    {begun : Desk}
    (hBefore : Missed s place name first k l)
    (hClose : close l = .ok () closed)
    (hElsewhere : Elsewhere s place closed d)
    (hStart : start closed.settings ⟨d, []⟩ = .ok m begun) :
    Missed s place name first k m

/-
  A loader that has loaded its cache, looks for what is missing,
  and has counted the misses of the name.
-/
structure Counting
    (s : Store)
    (place : Place)
    (name : String)
    (k : Nat)
    (l : Loader) : Prop where
  opened : Opened s place l
  auto : l.settings.autoRebuild = true
  order : l.index.known.InOrder
  misses : l.index.known.misses name = min Index.retryLimit k

/-
  The artifact has counted the misses of the name, or there is
  none and the name was not missed.
-/
def Stored
    (s : Store)
    (place : Place)
    (name : String)
    (k : Nat)
    (d : Disk) : Prop :=
  (d.node? (place ++ [s.key ++ ".json"]) = none ∧ k = 0) ∨
  ∃ stored,
    s.Offers d place stored ∧ stored.InOrder ∧
    stored.misses name = min Index.retryLimit k

/- A loader that has not loaded its cache, which has counted. -/
structure Waiting
    (s : Store)
    (place : Place)
    (name : String)
    (k : Nat)
    (l : Loader) : Prop where
  paired : Paired s place l
  auto : l.settings.autoRebuild = true
  unloaded : ¬ l.index.IsLoaded
  known : l.index.known = {}
  clean : l.index.session.dirty = false
  stored : Stored s place name k l.desk.disk

/- The misses are counted by the loader or in its artifact. -/
def Reckoned
    (s : Store)
    (place : Place)
    (name : String)
    (k : Nat)
    (l : Loader) : Prop :=
  Counting s place name k l ∨ Waiting s place name k l

end Loader

end SymbolAtlas

------------------------------------------------------------
-- Building
------------------------------------------------------------

namespace SymbolAtlas

/- A rebuild after all was forgotten leaves nothing missed. -/
theorem Index.misses_rebuilt_of_none
    {c : Context}
    {i final : Index}
    (hRebuild : rebuild c i = .ok () final)
    (hNone : ∀ name, i.known.missing.get? name = none)
    (name : String) :
    final.known.misses name = 0 := by
  rw [recounts_rebuild hRebuild name,
    Snapshot.misses_of_none (hNone name), ite_self]

namespace Loader

variable {s : Store} {place : Place} {l m : Loader}

/- What is built is in order, and nothing is missed in it. -/
theorem built_cases
    {k : Snapshot}
    (hBuild : build l = .ok k m) :
    m.settings = l.settings ∧
    m.index.known = k ∧
    k.InOrder ∧
    ∀ name, k.misses name = 0 := by
  unfold build at hBuild
  rcases Work.exists_of_bind_eq_ok hBuild with
    ⟨_, built, hScan, hGet⟩
  cases hGet
  rcases exists_of_onIndex_eq_ok hScan with ⟨i, hWork, rfl⟩
  rcases Work.exists_of_bind_eq_ok hWork with
    ⟨_, cleared, hClear, hRebuild⟩
  cases hClear
  have hOrder :=
    Index.inOrder_of_rebuild Snapshot.inOrder_empty hRebuild
  have hMisses :=
    Index.misses_rebuilt_of_none hRebuild fun _ => rfl
  exact ⟨rfl, rfl, hOrder, hMisses⟩

/- Without an artifact a load builds. -/
theorem loadCache_of_absent
    (hHoused : Housed s place l)
    (hNot : ¬ l.index.IsLoaded)
    (hAbsent :
      l.desk.disk.node? (place ++ [s.key ++ ".json"]) = none)
    (hRun : loadCache l = .ok () m) :
    m.settings = l.settings ∧
    m.index.known.InOrder ∧
    ∀ name, m.index.known.misses name = 0 := by
  have hKey := hHoused.not_mem_key
  have hNothing :=
    hHoused.clear.offersNothing_of_absent hKey hAbsent
  have hClear :
      s.MustBuild l.desk → ∃ place, s.Clear l.desk.disk place :=
    fun _ => ⟨place, hHoused.clear⟩
  rw [loadCache_of_not_loaded hHoused.store hNot] at hRun
  rcases Work.exists_of_bind_eq_ok hRun with
    ⟨k, loaded, hLoad, hMark⟩
  cases hMark
  unfold Store.load at hLoad
  rcases Work.exists_of_bind_eq_ok hLoad with
    ⟨found, sought, hSeek, hRest⟩
  rcases exists_of_onDesk_eq_ok hSeek with ⟨desk, hFound, rfl⟩
  rcases Store.seek_cases hKey hClear with
    ⟨-, ⟨k, notices, hFinds, -⟩ | ⟨error, notices, hError⟩⟩ |
    ⟨-, opened, hBuild, -⟩
  · rcases hNothing [] with ⟨more, hNone⟩
    rw [hFinds []] at hNone
    cases hNone
  · rw [hFound] at hError
    cases hError
  · rw [hFound] at hBuild
    cases hBuild
    rcases Work.exists_of_bind_eq_ok hRest with
      ⟨other, built, hBuild, hSave⟩
    rcases Work.exists_of_bind_eq_ok hSave with
      ⟨_, saved, hDesk, hPure⟩
    cases hPure
    rcases exists_of_onDesk_eq_ok hDesk with ⟨last, -, rfl⟩
    rcases built_cases hBuild with
      ⟨hSettings, -, hOrder, hNone⟩
    exact ⟨hSettings, hOrder, hNone⟩

variable {name : String} {k : Nat}

theorem Reckoned.paired
    (hReckoned : Reckoned s place name k l) :
    Paired s place l :=
  hReckoned.elim (fun hCounting => hCounting.opened.1)
    fun hWaiting => hWaiting.paired

theorem Reckoned.auto
    (hReckoned : Reckoned s place name k l) :
    l.settings.autoRebuild = true :=
  hReckoned.elim (fun hCounting => hCounting.auto)
    fun hWaiting => hWaiting.auto

/-
  A loader that has loaded its cache has counted the misses, and
  has scanned nothing for it unless there were none.
-/
theorem counting_of_loadCache
    (hReckoned : Reckoned s place name k l)
    (hRun : loadCache l = .ok () m) :
    Counting s place name k m ∧
    (m.index.session.walks = l.index.session.walks ∧
      m.index.scanned = l.index.scanned ∨ k = 0) := by
  have hOpened := ends_loadCache l () m hReckoned.paired hRun
  rcases hReckoned with hCounting | hWaiting
  · rw [loadCache_of_loaded hCounting.opened.2] at hRun
    cases hRun
    exact ⟨hCounting, Or.inl ⟨rfl, rfl⟩⟩
  · have hHoused := hWaiting.paired.housed
    rcases hWaiting.stored with
      ⟨hAbsent, rfl⟩ | ⟨stored, hOffers, hOrder, hMisses⟩
    · rcases loadCache_of_absent hHoused hWaiting.unloaded
          hAbsent hRun with
        ⟨hSettings, hOrder, hNone⟩
      refine ⟨⟨hOpened, ?_, hOrder, hNone name⟩, Or.inr rfl⟩
      rw [hSettings]
      exact hWaiting.auto
    · rcases loadCache_of_offers hHoused hWaiting.unloaded
          hOffers with
        ⟨notices, hLoad⟩ | ⟨error, -, -, hError⟩
      · rw [hRun] at hLoad
        cases hLoad
        exact ⟨⟨hOpened, hWaiting.auto, hOrder, hMisses⟩,
          Or.inl ⟨rfl, rfl⟩⟩
      · rw [hRun] at hError
        cases hError

end Loader

end SymbolAtlas

------------------------------------------------------------
-- Calls
------------------------------------------------------------

namespace SymbolAtlas

namespace Loader

variable {s : Store} {place : Place} {name symbol : String}
  {k : Nat} {l m middle : Loader}

/- A miss more, up to the limit. -/
theorem min_retryLimit_succ
    {misses : Int}
    (hMisses : misses = min Index.retryLimit k) :
    min (misses + 1) Index.retryLimit =
      min Index.retryLimit (k + 1 : Nat) := by
  push_cast
  omega

theorem min_retryLimit_zero :
    min Index.retryLimit (0 : Nat) = 0 := by
  decide

/-
  What happens after the cache was loaded, if it does not count
  the name: it was found, or it is missed as before.
-/
theorem Counting.recounted
    (hMiddle : Counting s place name k middle)
    (hSince :
      middle.index.session.walks = l.index.session.walks ∧
        middle.index.scanned = l.index.scanned ∨ k = 0)
    (hOpened : Opened s place m)
    (hSettings : m.settings = middle.settings)
    (hOrder : m.index.known.InOrder)
    (hRecounts : middle.index.Recounts m.index name) :
    Counting s place name
      (if l.index.hasFound m.index name then 0 else k) m := by
  refine ⟨hOpened, hSettings ▸ hMiddle.auto, hOrder, ?_⟩
  rw [hRecounts, hMiddle.misses]
  rcases hSince with ⟨hWalks, hScanned⟩ | rfl
  · have hSame :
        middle.index.hasFound m.index name =
          l.index.hasFound m.index name := by
      unfold Index.hasFound
      rw [hWalks, hScanned]
    rw [hSame]
    split
    · exact min_retryLimit_zero.symm
    · rfl
  · rw [min_retryLimit_zero, ite_self, ite_self]
    exact min_retryLimit_zero.symm

theorem looked_eq
    {value : Option String}
    (hRun : resolve name l = .ok value m)
    (k : Nat) :
    looked name l k = if value.isSome then 0 else k + 1 := by
  unfold looked
  rw [hRun]
  cases value <;> rfl

/- Only what is known is counted. -/
theorem Counting.of_known_eq
    (hCounting : Counting s place name k l)
    (hOpened : Opened s place m)
    (hSettings : m.settings = l.settings)
    (hKnown : m.index.known = l.index.known) :
    Counting s place name k m := by
  refine ⟨hOpened, hSettings ▸ hCounting.auto, ?_, ?_⟩
  · rw [hKnown]
    exact hCounting.order
  · rw [hKnown]
    exact hCounting.misses

/- A look-up counts the name, or is of no concern to it. -/
theorem counting_of_resolve
    {value : Option String}
    (hReckoned : Reckoned s place name k l)
    (hRun : resolve symbol l = .ok value m) :
    Counting s place name
      (if symbol = name then looked name l k
      else if l.index.hasFound m.index name then 0 else k)
      m := by
  have hOpened :=
    ends_resolve symbol l value m hReckoned.paired hRun
  rcases Work.exists_of_bind_eq_ok hRun with
    ⟨_, middle, hLoad, hIndex⟩
  rcases counting_of_loadCache hReckoned hLoad with
    ⟨hMiddle, hSince⟩
  rcases exists_of_onIndex_eq_ok hIndex with ⟨i, hLookup, rfl⟩
  have hOrder := Index.inOrder_of_lookup hMiddle.order hLookup
  have hTallied := hMiddle.order.toIsTallied
  by_cases hName : symbol = name
  · subst hName
    rw [if_pos rfl, looked_eq hRun]
    refine ⟨hOpened, hMiddle.auto, hOrder, ?_⟩
    change i.known.misses symbol = _
    rw [Index.misses_lookup hMiddle.auto hTallied hLookup]
    split
    · exact min_retryLimit_zero.symm
    · exact min_retryLimit_succ hMiddle.misses
  · rw [if_neg hName]
    have hRecounts :=
      Index.recounts_lookup hMiddle.auto hTallied
        (Ne.symm hName) hLookup
    exact hMiddle.recounted hSince hOpened rfl hOrder
      (hRecounts.congr rfl rfl rfl rfl)

/- A save changes only the desk. -/
theorem exists_of_save_eq_ok
    (hRun : save l = .ok () m) :
    ∃ desk, m = { l with desk := desk } := by
  unfold save at hRun
  rcases Work.exists_of_bind_eq_ok hRun with
    ⟨found, same, hStore, hSave⟩
  obtain rfl : l = same :=
    ends_store_same (Q := fun n => l = n) l found same rfl hStore
  rw [Work.bind_of_ok (Work.get_eq l)] at hSave
  rcases exists_of_onDesk_eq_ok hSave with ⟨desk, -, rfl⟩
  exact ⟨desk, rfl⟩

/- A refresh may find the name. -/
theorem counting_of_refresh
    (hReckoned : Reckoned s place name k l)
    (hRun : refresh l = .ok () m) :
    Counting s place name
      (if l.index.hasFound m.index name then 0 else k) m := by
  have hPaired := ends_refresh l () m hReckoned.paired hRun
  unfold refresh at hRun
  rcases Work.exists_of_bind_eq_ok hRun with
    ⟨_, middle, hLoad, hRest⟩
  rcases counting_of_loadCache hReckoned hLoad with
    ⟨hMiddle, hSince⟩
  rw [Work.bind_of_ok (Work.get_eq middle)] at hRest
  split at hRest
  · rcases Work.exists_of_bind_eq_ok hRest with
      ⟨_, scanned, hScan, hSaved⟩
    rcases exists_of_onIndex_eq_ok hScan with ⟨i, hRebuild, rfl⟩
    rcases Work.exists_of_bind_eq_ok hSaved with
      ⟨_, saved, hSave, hMark⟩
    rcases exists_of_save_eq_ok hSave with ⟨desk, rfl⟩
    cases hMark
    have hOrder := Index.inOrder_of_rebuild hMiddle.order hRebuild
    have hLoaded : i.IsLoaded :=
      Index.ends_rebuild middle.context middle.index () i
        hMiddle.opened.2 hRebuild
    exact hMiddle.recounted hSince ⟨hPaired, hLoaded⟩ rfl hOrder
      ((Index.recounts_rebuild hRebuild name).congr rfl rfl rfl
        rfl)
  · cases hRest
    exact hMiddle.recounted hSince hMiddle.opened rfl
      hMiddle.order (Index.recounts_of_eq rfl rfl rfl)

theorem counting_of_listing
    {value : List (String × String)}
    (hReckoned : Reckoned s place name k l)
    (hRun : listing l = .ok value m) :
    Counting s place name
      (if l.index.hasFound m.index name then 0 else k) m := by
  unfold listing at hRun
  rcases Work.exists_of_bind_eq_ok hRun with
    ⟨_, middle, hLoad, hGet⟩
  rcases counting_of_loadCache hReckoned hLoad with
    ⟨hMiddle, hSince⟩
  cases hGet
  exact hMiddle.recounted hSince hMiddle.opened rfl
    hMiddle.order (Index.recounts_of_eq rfl rfl rfl)

/- A rebuild starts anew. -/
theorem counting_of_rebuild
    (hReckoned : Reckoned s place name k l)
    (hRun : rebuild l = .ok () m) :
    Counting s place name 0 m := by
  have hPaired := ends_rebuild l () m hReckoned.paired hRun
  unfold rebuild at hRun
  rcases Work.exists_of_bind_eq_ok hRun with
    ⟨_, marked, hMark, hBuilt⟩
  cases hMark
  rcases Work.exists_of_bind_eq_ok hBuilt with
    ⟨known, built, hBuild, hRest⟩
  rcases built_cases hBuild with
    ⟨hSettings, rfl, hOrder, hNone⟩
  have hSession :=
    ends_session_build _ _ _ built rfl hBuild
  have hAuto : built.settings.autoRebuild = true := by
    rw [hSettings]
    exact hReckoned.auto
  have hLoaded : built.index.IsLoaded := by
    unfold Index.IsLoaded
    rw [hSession]
    rfl
  have hMisses :
      built.index.known.misses name = min Index.retryLimit 0 :=
    (hNone name).trans min_retryLimit_zero.symm
  rw [Work.bind_of_ok (Work.get_eq built)] at hRest
  split at hRest
  · rcases Work.exists_of_bind_eq_ok hRest with
      ⟨_, saved, hSave, hClean⟩
    rcases exists_of_save_eq_ok hSave with ⟨desk, rfl⟩
    cases hClean
    exact ⟨⟨hPaired, hLoaded⟩, hAuto, hOrder, hMisses⟩
  · cases hRest
    exact ⟨⟨hPaired, hLoaded⟩, hAuto, hOrder, hMisses⟩

/- Closing changes only the desk and the marks. -/
structure Closed (l m : Loader) : Prop where
  settings : m.settings = l.settings
  known : m.index.known = l.index.known
  scanned : m.index.scanned = l.index.scanned
  session : l.index.session.SameScans m.index.session
  disk :
    l.index.session.dirty = false → m.desk.disk = l.desk.disk

theorem closed_of_close
    (hRun : close l = .ok () m) :
    Closed l m := by
  unfold close at hRun
  rw [Work.bind_of_ok (Work.get_eq l)] at hRun
  dsimp only at hRun
  split at hRun
  · next hDirty =>
    rcases Work.exists_of_bind_eq_ok hRun with
      ⟨_, saved, hSave, hClean⟩
    rcases exists_of_save_eq_ok hSave with ⟨desk, rfl⟩
    cases hClean
    refine ⟨rfl, rfl, rfl, ⟨rfl, rfl, rfl⟩, ?_⟩
    intro hNot
    rw [hNot] at hDirty
    cases hDirty
  · cases hRun
    exact ⟨rfl, rfl, rfl, ⟨rfl, rfl, rfl⟩, fun _ => rfl⟩

end Loader

end SymbolAtlas

------------------------------------------------------------
-- One Loader
------------------------------------------------------------

namespace SymbolAtlas

namespace Loader

variable {s : Store} {place : Place} {name : String}
  {k : Nat} {l m : Loader}

theorem Call.after_of_ok
    {call : Call}
    (hRun : call.run l = .ok () m) :
    call.after l = m := by
  unfold after
  rw [hRun, Work.stateAfter_ok]

/- A look-up that is counted has succeeded. -/
theorem run_of_looked
    (hLooked : looked name l k = k + 1) :
    (Call.resolve name).run l =
      .ok () ((Call.resolve name).after l) := by
  unfold looked at hLooked
  have hRun :
      (Call.resolve name).run l =
        (resolve name >>= fun _ => pure ()) l :=
    rfl
  unfold Call.after
  rw [hRun]
  cases hResolve : resolve name l with
  | ok value m =>
      rw [Work.bind_of_ok hResolve]
      rfl
  | error error m =>
      rw [hResolve] at hLooked
      exact absurd hLooked (Nat.succ_ne_self k).symm

/- A file that is handed to the host is of no concern. -/
theorem counting_of_autoload
    {symbol : String}
    (hReckoned : Reckoned s place name k l)
    (hRun : autoload symbol l = .ok () m) :
    Counting s place name
      (if symbol = name then looked name l k
      else if l.index.hasFound m.index name then 0 else k)
      m := by
  have hOpened :=
    ends_autoload symbol l () m hReckoned.paired hRun
  rcases Work.exists_of_bind_eq_ok hRun with
    ⟨value, found, hResolve, hRest⟩
  have hCounting := counting_of_resolve hReckoned hResolve
  cases value with
  | none =>
      cases hRest
      exact hCounting
  | some path =>
      cases hRest
      exact hCounting.of_known_eq hOpened rfl rfl

/- Closing counts nothing, and loads nothing. -/
theorem reckoned_of_close
    (hReckoned : Reckoned s place name k l)
    (hRun : close l = .ok () m) :
    Reckoned s place name
      (if l.index.hasFound m.index name then 0 else k) m := by
  rcases ends_close l l () m ⟨rfl, hReckoned.paired⟩ hRun with
    ⟨hPaired, hClean, -, hStill⟩
  have hClosed := closed_of_close hRun
  rw [Index.hasFound_of_eq hClosed.session.walks hClosed.scanned,
    if_neg Bool.false_ne_true]
  rcases hReckoned with hCounting | hWaiting
  · left
    exact hCounting.of_known_eq
      ⟨hPaired, hStill hCounting.opened.2⟩ hClosed.settings
      hClosed.known
  · right
    refine ⟨hPaired, ?_, ?_, ?_, hClean, ?_⟩
    · rw [hClosed.settings]
      exact hWaiting.auto
    · intro hLoaded
      exact hWaiting.unloaded
        (hClosed.session.cacheLoaded.symm.trans hLoaded)
    · rw [hClosed.known]
      exact hWaiting.known
    · rw [hClosed.disk hWaiting.clean]
      exact hWaiting.stored

/- Every call that succeeds is counted. -/
theorem Reckoned.of_run
    {call : Call}
    (hReckoned : Reckoned s place name k l)
    (hRun : call.run l = .ok () m) :
    Reckoned s place name (call.tally name l k) m := by
  have hAfter := Call.after_of_ok hRun
  unfold Call.tally
  rw [hAfter]
  cases call with
  | resolve symbol =>
      left
      rcases Work.exists_of_bind_eq_ok hRun with
        ⟨value, found, hResolve, hPure⟩
      cases hPure
      exact counting_of_resolve hReckoned hResolve
  | autoload symbol =>
      exact Or.inl (counting_of_autoload hReckoned hRun)
  | listing =>
      left
      rcases Work.exists_of_bind_eq_ok hRun with
        ⟨value, listed, hListing, hPure⟩
      cases hPure
      exact counting_of_listing hReckoned hListing
  | refresh => exact Or.inl (counting_of_refresh hReckoned hRun)
  | rebuild => exact Or.inl (counting_of_rebuild hReckoned hRun)
  | close => exact reckoned_of_close hReckoned hRun

end Loader

end SymbolAtlas

------------------------------------------------------------
-- Loaders after Each Other
------------------------------------------------------------

namespace SymbolAtlas

namespace Loader

variable {s : Store} {place : Place} {name : String}
  {k : Nat} {l m : Loader} {d : Disk}

/- The artifact says the same as long as it is there. -/
theorem Stored.of_elsewhere
    (hStored : Stored s place name k l.desk.disk)
    (hElsewhere : Elsewhere s place l d) :
    Stored s place name k d := by
  rcases hStored with
    ⟨hAbsent, hNever⟩ | ⟨stored, hOffers, hOrder, hMisses⟩
  · left
    exact ⟨(hElsewhere.files ".json" (by decide)).trans hAbsent,
      hNever⟩
  · right
    exact ⟨stored, hElsewhere.offers hOffers, hOrder, hMisses⟩

/- A change elsewhere counts nothing. -/
theorem Reckoned.onDisk
    (hReckoned : Reckoned s place name k l)
    (hElsewhere : Elsewhere s place l d) :
    Reckoned s place name k (l.onDisk d) := by
  have hPaired := hReckoned.paired.of_turn (.changed hElsewhere)
  rcases hReckoned with hCounting | hWaiting
  · left
    exact hCounting.of_known_eq
      ⟨hPaired, hCounting.opened.2⟩ rfl rfl
  · right
    exact ⟨hPaired, hWaiting.auto, hWaiting.unloaded,
      hWaiting.known, hWaiting.clean,
      hWaiting.stored.of_elsewhere hElsewhere⟩

/- The artifact of a loader that is closed has its count. -/
theorem Reckoned.stored_of_close
    (hReckoned : Reckoned s place name k l)
    (hClose : close l = .ok () m) :
    Stored s place name k m.desk.disk := by
  rcases hReckoned with hCounting | hWaiting
  · rcases ends_close l l () m ⟨rfl, hCounting.opened.1⟩ hClose
      with ⟨hPaired, hClean, hKnown, hStill⟩
    rcases hPaired.mirrored (hStill hCounting.opened.2) hClean with
      ⟨stored, hOffers, hSame⟩
    rw [hKnown] at hSame
    refine Or.inr ⟨stored, hOffers,
      hCounting.order.of_sameMaps hSame, ?_⟩
    unfold Snapshot.misses
    rw [hSame.missing name]
    exact hCounting.misses
  · rw [(closed_of_close hClose).disk hWaiting.clean]
    exact hWaiting.stored

/- A loader that starts waits for the count of the artifact. -/
theorem reckoned_of_start
    {settings : Settings}
    {desk begun : Desk}
    (hAuto : settings.autoRebuild = true)
    (hStart : start settings desk = .ok m begun)
    (hHoused : Housed s place m)
    (hStored : Stored s place name k m.desk.disk) :
    Reckoned s place name k m := by
  have hPaired := paired_of_start hStart hHoused
  have hIndex := index_of_start hStart
  right
  refine ⟨hPaired, ?_, ?_, ?_, ?_, hStored⟩
  · rw [eq_newOn_of_start hStart]
    exact hAuto
  · rw [hIndex]
    exact Bool.false_ne_true
  · rw [hIndex]
  · rw [hIndex]

/- A loader can be started where the settings lead to a store. -/
theorem start_of_housed
    {settings : Settings}
    (hHoused : Housed s place (newOn settings d)) :
    start settings ⟨d, []⟩ =
      .ok (newOn settings d) ⟨d, []⟩ := by
  refine @start_eq place _ _ fun path hPath => ?_
  have hDir := hHoused.cacheDir.symm.trans hPath
  rw [Option.some.injEq] at hDir
  rw [← hDir]
  exact hHoused.clear.directory

/- The next loader goes on with the count. -/
theorem Reckoned.reopened
    {closed : Loader}
    {begun : Desk}
    (hReckoned : Reckoned s place name k l)
    (hClose : close l = .ok () closed)
    (hElsewhere : Elsewhere s place closed d)
    (hStart : start closed.settings ⟨d, []⟩ = .ok m begun) :
    Reckoned s place name k m := by
  have hStored :=
    (hReckoned.stored_of_close hClose).of_elsewhere hElsewhere
  have hAuto : closed.settings.autoRebuild = true := by
    rw [(closed_of_close hClose).settings]
    exact hReckoned.auto
  have hNext : Housed s place (newOn closed.settings d) :=
    hElsewhere.housed.newOn
  have hNew := hStart
  rw [start_of_housed hNext] at hNew
  cases hNew
  exact reckoned_of_start hAuto hStart hNext hStored

/- The misses are reckoned from the first loader on. -/
theorem Missed.reckoned
    {first last : Loader}
    (hFirst : Reckoned s place name 0 first)
    (hMissed : Missed s place name first k last) :
    Reckoned s place name k last := by
  induction hMissed with
  | begun => exact hFirst
  | asked call hBefore hRun ih => exact ih.of_run hRun
  | changed hBefore hElsewhere ih => exact ih.onDisk hElsewhere
  | reopened hBefore hClose hElsewhere hStart ih =>
      exact ih.reopened hClose hElsewhere hStart

/-
  A name is counted as missed as often as it was in a row, up to
  the limit, whatever loaders do and whatever happens elsewhere,
  as long as nothing fails. A loader that has not loaded its
  cache knows nothing, and its artifact has the count. A name at
  the limit is not looked for, and nothing changes.
-/
theorem misses_are_exact
    {settings : Settings}
    {desk begun : Desk}
    {first last : Loader}
    (hStart : start settings desk = .ok first begun)
    (hAuto : settings.autoRebuild = true)
    (hHoused : Housed s place first)
    (hAbsent :
      first.desk.disk.node? (place ++ [s.key ++ ".json"]) = none)
    (hMissed : Missed s place name first k last) :
    (last.index.IsLoaded →
      last.index.known.misses name = min Index.retryLimit k) ∧
    (¬ last.index.IsLoaded →
      last.index.known = {} ∧
      (last.desk.disk.node? (place ++ [s.key ++ ".json"]) = none ∧
          k = 0 ∨
        ∃ stored,
          s.read last.desk = .ok (some stored) last.desk ∧
          stored.misses name = min Index.retryLimit k)) ∧
    (last.index.IsLoaded →
      Index.retryLimit ≤ k →
      ∀ c, Index.lookup c name last.index =
        .ok none last.index) := by
  have hReckoned :=
    hMissed.reckoned (reckoned_of_start hAuto hStart hHoused
      (Or.inl ⟨hAbsent, rfl⟩))
  rcases hReckoned with hCounting | hWaiting
  · refine ⟨fun _ => hCounting.misses,
      fun hNot => absurd hCounting.opened.2 hNot, ?_⟩
    intro _ hLimit
    apply Index.lookup_of_limit
    rw [hCounting.misses]
    omega
  · have hNot := hWaiting.unloaded
    refine ⟨fun hLoaded => absurd hLoaded hNot, fun _ => ?_,
      fun hLoaded => absurd hLoaded hNot⟩
    refine ⟨hWaiting.known, ?_⟩
    rcases hWaiting.stored with
      hNone | ⟨stored, hOffers, -, hMisses⟩
    · exact Or.inl hNone
    · have hThere := hWaiting.paired.housed
      exact Or.inr ⟨stored,
        hOffers.read_eq hThere.not_mem_key hThere.clear, hMisses⟩

/- A root that is a link, with no source wherever it leads. -/
def forkedSettings : Settings where
  projectDir := "/"
  roots := ["l"]
  cacheDir := some "/c"

def forkedDisk : Disk where
  nodes := [
    (["c"], .newDirectory),
    (["l"], .link "a"),
    (["a"], .newDirectory),
    (["b"], .newDirectory)]

def forkedStore : Store where
  directory := "/c"
  key := "e489d8fab7255864e9efa9eb50436f65"

def forkedLoader : Loader :=
  newOn forkedSettings forkedDisk

/- A symbol is missed, and the loader is closed. -/
def missedOnce : Loader :=
  (Call.resolve "Z").after forkedLoader

def closedOnce : Loader :=
  Call.close.after missedOnce

/- The next loader, where nothing has changed. -/
def reopenedLoader : Loader :=
  newOn closedOnce.settings closedOnce.desk.disk

/- The next loader, where the root leads elsewhere. -/
def divertedLoader : Loader :=
  newOn closedOnce.settings
    (closedOnce.desk.disk.put ["l"] (.link "b"))

theorem forked_run :
    SeenHoused forkedStore ["c"] forkedLoader ∧
    looked "Z" forkedLoader 0 = 1 ∧
    missedOnce.index.session.cacheLoaded = true ∧
    Call.close.succeeds missedOnce = true ∧
    closedOnce.settings.cacheDir = some "/c" ∧
    (divertedLoader.desk.disk.reach Disk.linkLimit []
      (Route.ofText "/c").names).toOption = some ["c"] ∧
    looked "Z" divertedLoader 1 = 2 ∧
    ((Call.resolve "Z").after
      divertedLoader).index.known.misses "Z" = 1 := by
  decide +kernel

theorem forked_start :
    start forkedSettings ⟨forkedDisk, []⟩ =
        .ok forkedLoader ⟨forkedDisk, []⟩ ∧
      ∀ name, forkedDisk.node? (["c"] ++ [name]) = none :=
  ⟨start_of_housed forked_run.1.housed, fun _ => rfl⟩

theorem missed_once :
    Missed forkedStore ["c"] "Z" forkedLoader 1 missedOnce := by
  rcases forked_run with ⟨-, hLooked, -⟩
  have hMissed :
      Missed forkedStore ["c"] "Z" forkedLoader
        ((Call.resolve "Z").tally "Z" forkedLoader 0)
        missedOnce :=
    .asked _ .begun (run_of_looked hLooked)
  rw [Call.tally, if_pos rfl, hLooked] at hMissed
  exact hMissed

theorem missed_once_reopened :
    close missedOnce = .ok () closedOnce ∧
    Missed forkedStore ["c"] "Z" forkedLoader 1
      reopenedLoader := by
  rcases forked_run with ⟨hSeen, -, -, hClose, -⟩
  have hClosed := Call.run_of_succeeds hClose
  rw [Call.run] at hClosed
  change close missedOnce = .ok () closedOnce at hClosed
  have hFirst :
      Reckoned forkedStore ["c"] "Z" 0 forkedLoader :=
    reckoned_of_start rfl forked_start.1 hSeen.housed
      (Or.inl ⟨forked_start.2 _, rfl⟩)
  have hPaired : Paired forkedStore ["c"] closedOnce :=
    (ends_close missedOnce missedOnce () closedOnce
      ⟨rfl, (missed_once.reckoned hFirst).paired⟩ hClosed).1
  have hElsewhere :
      Elsewhere forkedStore ["c"] closedOnce
        closedOnce.desk.disk :=
    ⟨hPaired.housed.of_sameDesk (settings_onDisk _ _)
      (disk_onDisk _ _), fun _ _ => rfl⟩
  exact ⟨hClosed, .reopened missed_once hClosed hElsewhere
    (start_of_housed hPaired.housed.newOn)⟩

/- The miss is counted, and the next loader will know of it. -/
theorem miss_is_counted :
    missedOnce.index.known.misses "Z" = 1 ∧
    ∃ stored,
      forkedStore.read reopenedLoader.desk =
        .ok (some stored) reopenedLoader.desk ∧
      stored.misses "Z" = 1 := by
  rcases forked_run with ⟨hSeen, -, hLoaded, -⟩
  rcases forked_start with ⟨hStart, hEmpty⟩
  have hHoused := hSeen.housed
  have hAbsent := hEmpty (forkedStore.key ++ ".json")
  have hNot : ¬ reopenedLoader.index.IsLoaded :=
    Bool.false_ne_true
  refine ⟨(misses_are_exact hStart rfl hHoused hAbsent
    missed_once).1 hLoaded, ?_⟩
  rcases ((misses_are_exact hStart rfl hHoused hAbsent
      missed_once_reopened.2).2.1 hNot).2 with
    ⟨-, hNever⟩ | hStored
  · cases hNever
  · exact hStored

/-
  The next loader does not know how often a name was missed
  before it has loaded its cache, and never if its root has been
  led elsewhere, although nobody has touched the directory of
  the store.
-/
theorem misses_start_anew :
    (start forkedSettings ⟨forkedDisk, []⟩ =
        .ok forkedLoader ⟨forkedDisk, []⟩ ∧
      ∀ name, forkedDisk.node? (["c"] ++ [name]) = none) ∧
    (Missed forkedStore ["c"] "Z" forkedLoader 1 reopenedLoader ∧
      reopenedLoader.index.known.misses "Z" ≠
        min Index.retryLimit 1) ∧
    Missed forkedStore ["c"] "Z" forkedLoader 1 missedOnce ∧
    close missedOnce = .ok () closedOnce ∧
    (∀ name,
      divertedLoader.desk.disk.node? (["c"] ++ [name]) =
        closedOnce.desk.disk.node? (["c"] ++ [name])) ∧
    start closedOnce.settings ⟨divertedLoader.desk.disk, []⟩ =
      .ok divertedLoader ⟨divertedLoader.desk.disk, []⟩ ∧
    looked "Z" divertedLoader 1 = 2 ∧
    ((Call.resolve "Z").after
      divertedLoader).index.known.misses "Z" ≠
        min Index.retryLimit 2 := by
  rcases forked_run with
    ⟨-, -, -, -, hDir, hPlace, hLooked, hMisses⟩
  rcases missed_once_reopened with ⟨hClosed, hReopened⟩
  have hDirectory :
      ∀ path, closedOnce.settings.cacheDir = some path →
        divertedLoader.desk.disk.HasDirectory path ["c"] := by
    intro path hPath
    rw [hDir] at hPath
    cases hPath
    have hStart : divertedLoader.desk.disk.startOf "/c" = [] := rfl
    refine ⟨?_, ?_⟩
    · rw [hStart]
      exact Disk.grounded_nil _
    · rw [hStart]
      exact Work.toOption_eq_some_iff.mp hPlace
  refine ⟨forked_start, ⟨hReopened, by decide⟩, missed_once,
    hClosed, ?_, start_eq hDirectory, hLooked, ?_⟩
  · intro name
    change (closedOnce.desk.disk.put ["l"] _).node? _ = _
    rw [Disk.node?_put (by simp), if_neg (by simp)]
  · rw [hMisses]
    decide

end Loader

end SymbolAtlas
