import Mathlib.Logic.Relation
import SymbolAtlas.Proofs.Index.Flags
import SymbolAtlas.Proofs.Loader.Lifetimes
import SymbolAtlas.Proofs.Store.Loading

/-
  Loaders with nothing to save.

  Whatever a loader changes it saves or flags. So a loader that
  has loaded its cache and has nothing to save knows exactly what
  its artifact says, and the next loader goes on from there. The
  disk may change meanwhile, as long as the settings lead to the
  same store: the name of an artifact depends on where the roots
  really are, so a root behind a link that is led elsewhere makes
  the next loader start anew.

  Key definitions:
    * `Loader.Housed`, `Loader.Mirrored`, `Loader.Paired`
    * `Loader.Action`, `Loader.Elsewhere`, `Loader.Turn`
  Key theorems:
    * `Loader.Housed.of_refiled`
    * `Loader.ends_load`, `Loader.ends_action`
    * `Loader.loadCache_of_offers`
    * `Loader.clean_loader_mirrors_artifact`
    * `Loader.relinked_root_starts_anew`
-/

------------------------------------------------------------
-- The Same Store
------------------------------------------------------------

namespace SymbolAtlas

/- Keys depend on settings and links only. -/
theorem Key.ofSettings_of_sameLinks
    {d e : Disk}
    (hLinks : d.SameLinks e)
    (hSame : d.SameWays e)
    (settings : Settings) :
    Key.ofSettings settings e = Key.ofSettings settings d := by
  have hPath :
      settings.resolvePath e = settings.resolvePath d :=
    funext (settings.resolvePath_of_sameLinks hLinks hSame)
  unfold Key.ofSettings Key.payload
  rw [hPath]

namespace Loader

/-
  The settings lead to the store, no link stands for one of its
  files, and the disk is a tree.
-/
structure Housed
    (s : Store)
    (place : Place)
    (l : Loader) : Prop where
  store : Loader.store l = .ok s l
  clear : s.Clear l.desk.disk place
  tree : l.desk.disk.IsTree

/- The artifact of the store says what is known. -/
def Mirrored
    (s : Store)
    (place : Place)
    (l : Loader) : Prop :=
  ∃ k, s.Offers l.desk.disk place k ∧ k.SameMaps l.index.known

variable {s : Store} {place : Place} {l m : Loader}

theorem Housed.not_mem_key
    (hHoused : Housed s place l) :
    '/' ∉ s.key.toList := by
  rcases store_eq_ok_iff.mp hHoused.store with
    ⟨_, key, -, hKey, rfl⟩
  exact Key.not_mem_ofSettings hKey

theorem Housed.cacheDir
    (hHoused : Housed s place l) :
    l.settings.cacheDir = some s.directory := by
  rcases store_eq_ok_iff.mp hHoused.store with
    ⟨dir, _, hDir, -, rfl⟩
  exact hDir

/- Files of the store may come and go. -/
theorem Housed.of_refiled
    (hHoused : Housed s place l)
    (hSettings : m.settings = l.settings)
    (hRefiled : s.Refiled place l.desk.disk m.desk.disk) :
    Housed s place m := by
  rcases hRefiled.links hHoused.tree with ⟨hTree, hLinks⟩
  refine ⟨?_, hHoused.clear.of_refiled hRefiled, hTree⟩
  rcases store_eq_ok_iff.mp hHoused.store with
    ⟨dir, key, hDir, hKey, hStore⟩
  apply store_eq_ok_iff.mpr
  refine ⟨dir, key, ?_, ?_, ?_⟩
  · rw [hSettings]
    exact hDir
  · rw [hSettings,
      Key.ofSettings_of_sameLinks hLinks hRefiled.ways]
    exact hKey
  · rw [hSettings]
    exact hStore

/- Only the desk and the settings decide on the store. -/
theorem Housed.of_sameDesk
    (hHoused : Housed s place l)
    (hSettings : m.settings = l.settings)
    (hDisk : m.desk.disk = l.desk.disk) :
    Housed s place m := by
  apply hHoused.of_refiled hSettings
  rw [hDisk]
  exact .refl s place l.desk.disk

theorem Mirrored.of_eq
    (hMirrored : Mirrored s place l)
    (hDisk : m.desk.disk = l.desk.disk)
    (hKnown : m.index.known = l.index.known) :
    Mirrored s place m := by
  unfold Mirrored
  rw [hDisk, hKnown]
  exact hMirrored

end Loader

end SymbolAtlas

------------------------------------------------------------
-- Parts of the Work
------------------------------------------------------------

namespace SymbolAtlas

namespace Loader

variable {s : Store} {place : Place}

/- Work on the desk changes nothing else. -/
theorem exists_of_onDesk_eq_ok
    {α : Type}
    {w : Desk.Work α}
    {l m : Loader}
    {value : α}
    (hRun : onDesk w l = .ok value m) :
    ∃ desk,
      w l.desk = .ok value desk ∧ m = { l with desk := desk } := by
  unfold onDesk at hRun
  cases hWork : w l.desk with
  | error error desk =>
      rw [hWork] at hRun
      cases hRun
  | ok other desk =>
      rw [hWork] at hRun
      cases hRun
      exact ⟨desk, rfl, rfl⟩

/- Work on the index leaves the disk alone. -/
theorem exists_of_onIndex_eq_ok
    {α : Type}
    {w : Index.Context → Index.Work α}
    {l m : Loader}
    {value : α}
    (hRun : onIndex w l = .ok value m) :
    ∃ i,
      w l.context l.index = .ok value i ∧ m = l.withIndex i := by
  cases hWork : w l.context l.index with
  | error error i =>
      rw [onIndex_of_error hWork] at hRun
      cases hRun
  | ok other i =>
      rw [onIndex_of_ok hWork] at hRun
      cases hRun
      exact ⟨i, rfl, rfl⟩

/- The store that the settings lead to is found. -/
theorem ends_store
    {P : Loader → Prop}
    (hHoused : ∀ l, P l → Housed s place l) :
    Work.Ends P store fun found l => found = s ∧ P l := by
  intro l found m hStart hRun
  rw [(hHoused l hStart).store] at hRun
  cases hRun
  exact ⟨rfl, hStart⟩

/- What is saved is mirrored by the artifact. -/
theorem ends_save
    {P : Index → Prop} :
    Work.Ends
      (fun l => Housed s place l ∧ P l.index) save
      fun _ l =>
        Housed s place l ∧ P l.index ∧ Mirrored s place l := by
  refine (ends_store fun _ hStart => hStart.1).bind
    fun found => ?_
  rintro l value m ⟨rfl, hHoused, hIndex⟩ hRun
  rcases Work.exists_of_bind_eq_ok hRun with
    ⟨_, _, hGet, hDesk⟩
  cases hGet
  rcases exists_of_onDesk_eq_ok hDesk with ⟨desk, hSave, rfl⟩
  have hSaved :=
    hHoused.clear.saved_of_save hHoused.not_mem_key hSave
  exact ⟨hHoused.of_refiled rfl hSaved.refiled, hIndex,
    _, hSaved.offers, Snapshot.sameMaps_arranged _⟩

/- What is built is known then. -/
theorem ends_build
    {P : Index → Prop}
    (hRebuild :
      ∀ c, Work.Ends P
        (Index.clear >>= fun _ => Index.rebuild c) fun _ => P)
    (hQuiet : ∀ i, P i → P { i with notices := [] }) :
    Work.Ends
      (fun l => Housed s place l ∧ P l.index) build
      fun k l =>
        l.index.known = k ∧ Housed s place l ∧ P l.index := by
  rintro l value m ⟨hHoused, hIndex⟩ hRun
  unfold build at hRun
  rcases Work.exists_of_bind_eq_ok hRun with
    ⟨_, middle, hScan, hGet⟩
  rcases exists_of_onIndex_eq_ok hScan with ⟨i, hWork, rfl⟩
  cases hGet
  exact ⟨rfl, hHoused.of_sameDesk rfl rfl,
    hQuiet i (hRebuild l.context l.index _ i hIndex hWork)⟩

/- What is loaded is what the artifact says then. -/
theorem ends_load :
    Work.Ends (Housed s place)
      (s.load Others.absent onDesk build)
      fun k l =>
        Housed s place l ∧
        ∃ other,
          s.Offers l.desk.disk place other ∧ other.SameMaps k := by
  have hSeek :
      Work.Ends (Housed s place) (onDesk (s.seek Others.absent))
        fun found l =>
          Housed s place l ∧
          ∀ k, found = .inl k →
            s.Offers l.desk.disk place k := by
    intro l found m hHoused hRun
    rcases exists_of_onDesk_eq_ok hRun with ⟨desk, hSeek, rfl⟩
    rcases Store.ends_seek hHoused.not_mem_key l.desk found desk
        ⟨hHoused.clear, .refl s place l.desk.disk⟩ hSeek with
      ⟨hDesk, hFound⟩
    exact ⟨hHoused.of_refiled rfl hDesk.2, hFound⟩
  unfold Store.load
  refine hSeek.bind fun found => ?_
  cases found with
  | inl k =>
      apply Work.ends_pure
      rintro l ⟨hHoused, hOffers⟩
      exact ⟨hHoused, k, hOffers k rfl, .refl k⟩
  | inr lock =>
      have hBuild :
          Work.Ends (Housed s place) build
            fun k l => Housed s place l :=
        ((ends_build (P := fun _ => True)
          (fun _ _ _ _ _ _ => trivial) fun _ _ => trivial).of_imp
            fun _ hHoused => ⟨hHoused, trivial⟩).mono
              fun _ _ hBuilt => hBuilt.2.1
      refine (hBuild.of_imp fun _ hState => hState.1).bind
        fun k => ?_
      intro l value m hHoused hRun
      rcases Work.exists_of_bind_eq_ok hRun with
        ⟨_, middle, hDesk, hPure⟩
      cases hPure
      rcases exists_of_onDesk_eq_ok hDesk with ⟨desk, hSave, rfl⟩
      have hSaved :=
        hHoused.clear.saved_of_saveWith hHoused.not_mem_key hSave
      exact ⟨hHoused.of_refiled rfl hSaved.refiled,
        _, hSaved.offers, Snapshot.sameMaps_arranged _⟩

end Loader

end SymbolAtlas

------------------------------------------------------------
-- Actions
------------------------------------------------------------

namespace SymbolAtlas

namespace Loader

/-
  If the loader has loaded its cache and has nothing to save, its
  artifact says what it knows.
-/
structure Paired
    (s : Store)
    (place : Place)
    (l : Loader) : Prop where
  housed : Housed s place l
  mirrored :
    l.index.IsLoaded → l.index.session.dirty = false →
      Mirrored s place l

/- A loader of this kind that has loaded its cache. -/
def Opened
    (s : Store)
    (place : Place)
    (l : Loader) : Prop :=
  Paired s place l ∧ l.index.IsLoaded

variable {s : Store} {place : Place}

theorem ends_markLoaded :
    Work.Ends
      (fun l => Housed s place l ∧ Mirrored s place l) markLoaded
      fun _ => Opened s place := by
  rintro l value m ⟨hHoused, hMirrored⟩ hRun
  cases hRun
  exact ⟨⟨hHoused.of_sameDesk rfl rfl,
    fun _ _ => hMirrored.of_eq rfl rfl⟩, rfl⟩

theorem ends_markClean :
    Work.Ends
      (fun l =>
        Housed s place l ∧
          (l.index.IsLoaded → Mirrored s place l)) markClean
      fun _ l =>
        Paired s place l ∧ l.index.session.dirty = false := by
  rintro l value m ⟨hHoused, hMirrored⟩ hRun
  cases hRun
  refine ⟨⟨hHoused.of_sameDesk rfl rfl, ?_⟩, rfl⟩
  intro hLoaded _
  exact (hMirrored hLoaded).of_eq rfl rfl

/- The cache is loaded and mirrored. -/
theorem ends_loadCache :
    Work.Ends (Paired s place) loadCache
      fun _ => Opened s place := by
  unfold loadCache
  refine Work.ends_get.bind fun l => ?_
  split
  · refine (ends_store fun _ hState => hState.2.housed).bind
      fun found => ?_
    rintro start value m ⟨rfl, -, hPaired⟩ hRun
    revert start value m hPaired hRun
    refine ends_load.of_imp (fun _ hPaired => hPaired.housed)
      |>.bind fun k => ?_
    have hRestore :
        Work.Ends
          (fun l => Housed found place l ∧
            ∃ other,
              found.Offers l.desk.disk place other ∧
                other.SameMaps k)
          (onIndex fun _ => Index.restore k)
          fun _ l =>
            Housed found place l ∧ Mirrored found place l := by
      rintro l value m ⟨hHoused, hOffers⟩ hRun
      cases hRun
      exact ⟨hHoused.of_sameDesk rfl rfl, hOffers⟩
    exact hRestore.bind fun _ => ends_markLoaded
  · next hNot =>
      apply Work.ends_pure
      rintro state ⟨rfl, hPaired⟩
      exact ⟨hPaired, by simpa [Index.IsLoaded] using hNot⟩

/- Look-ups flag what they change. -/
theorem ends_resolve
    (symbol : String) :
    Work.Ends (Paired s place) (resolve symbol)
      fun _ => Opened s place := by
  refine ends_loadCache.bind fun _ => ?_
  rintro l value m ⟨hPaired, hLoaded⟩ hRun
  rcases exists_of_onIndex_eq_ok hRun with ⟨i, hLookup, rfl⟩
  have hFlagged :
      l.index.Flagged fun known =>
        ∃ k, s.Offers l.desk.disk place k ∧ k.SameMaps known :=
    ⟨hLoaded, hPaired.mirrored hLoaded⟩
  rcases Index.ends_lookup l.context symbol l.index value i
      hFlagged hLookup with
    ⟨hStill, hKnown⟩
  exact ⟨⟨hPaired.housed.of_sameDesk rfl rfl,
    fun _ hClean => hKnown hClean⟩, hStill⟩

theorem ends_autoload
    (symbol : String) :
    Work.Ends (Paired s place) (autoload symbol)
      fun _ => Opened s place := by
  refine (ends_resolve symbol).bind fun found => ?_
  cases found with
  | none => exact Work.ends_pure fun _ hOpened => hOpened
  | some path =>
      apply Work.ends_modify
      rintro l ⟨hPaired, hLoaded⟩
      exact ⟨⟨hPaired.housed.of_sameDesk rfl rfl,
        fun hLoaded hClean =>
          (hPaired.mirrored hLoaded hClean).of_eq rfl rfl⟩,
        hLoaded⟩

theorem ends_autoloadFile
    (file : String) :
    Work.Ends (Paired s place) (autoloadFile file)
      fun _ => Paired s place := by
  unfold autoloadFile
  refine Work.ends_get.bind fun l => ?_
  cases l.settings.resolvePath l.desk.disk file with
  | error error => exact Work.ends_throw error
  | ok path =>
      dsimp only
      split
      · exact ((ends_autoload _).of_imp
          fun _ hState => hState.2).mono
            fun _ _ hOpened => hOpened.1
      · exact Work.ends_pure fun _ hState => hState.2

theorem ends_register
    (chain : List Hook)
    (atFront : Bool) :
    Work.Ends (Paired s place) (register chain atFront)
      fun _ => Paired s place := by
  unfold register
  refine Work.ends_get.bind fun l => ?_
  have hFiles :
      Work.Ends (Paired s place)
        (l.settings.files.forM autoloadFile)
        fun _ => Paired s place :=
    Work.Ends.forM fun file _ => ends_autoloadFile file
  refine (hFiles.of_imp fun _ hState => hState.2).bind
    fun _ => ?_
  exact Work.ends_pure fun _ hPaired => hPaired

/- A rebuild is saved. -/
theorem ends_refresh :
    Work.Ends (Paired s place) refresh
      fun _ => Paired s place := by
  have hScan :
      Work.Ends
        (fun l => Housed s place l ∧ l.index.IsLoaded)
        (onIndex Index.rebuild)
        fun _ l => Housed s place l ∧ l.index.IsLoaded := by
    rintro l value m ⟨hHoused, hLoaded⟩ hRun
    rcases exists_of_onIndex_eq_ok hRun with ⟨i, hRebuild, rfl⟩
    exact ⟨hHoused.of_sameDesk rfl rfl,
      Index.ends_rebuild l.context l.index value i hLoaded
        hRebuild⟩
  unfold refresh
  refine ends_loadCache.bind fun _ => ?_
  refine Work.ends_get.bind fun l => ?_
  split
  · refine (hScan.of_imp fun _ hState =>
      ⟨hState.2.1.housed, hState.2.2⟩).bind fun _ => ?_
    refine (ends_save (P := Index.IsLoaded)).bind fun _ => ?_
    exact (ends_markClean.of_imp fun _ hState =>
      ⟨hState.1, fun _ => hState.2.2⟩).mono
        fun _ _ hClean => hClean.1
  · exact Work.ends_pure fun _ hState => hState.2.1

theorem ends_rebuild :
    Work.Ends (Paired s place) rebuild
      fun _ => Paired s place := by
  have hMark :
      Work.Ends (Paired s place) markLoaded
        fun _ l => Housed s place l ∧ l.index.IsLoaded := by
    rintro l value m hPaired hRun
    cases hRun
    exact ⟨hPaired.housed.of_sameDesk rfl rfl, rfl⟩
  have hScan (c : Index.Context) :
      Work.Ends Index.IsLoaded
        (Index.clear >>= fun _ => Index.rebuild c)
        fun _ => Index.IsLoaded := by
    refine Work.Ends.bind ?_ fun _ => Index.ends_rebuild c
    exact Work.ends_modify fun _ hLoaded => hLoaded
  unfold rebuild
  refine hMark.bind fun _ => ?_
  refine (ends_build hScan fun _ hLoaded => hLoaded).bind
    fun k => ?_
  refine Work.ends_get.bind fun l => ?_
  split
  · refine ((ends_save (P := Index.IsLoaded)).of_imp
      fun _ hState => hState.2.2).bind fun _ => ?_
    exact (ends_markClean.of_imp fun _ hState =>
      ⟨hState.1, fun _ => hState.2.2⟩).mono
        fun _ _ hClean => hClean.1
  · next hNone =>
      intro state value m hState hRun
      rcases hState with ⟨rfl, -, hHoused, -⟩
      rw [hHoused.cacheDir] at hNone
      exact absurd rfl hNone

/- Closing leaves nothing to save, and all that is known. -/
theorem ends_close
    (before : Loader) :
    Work.Ends
      (fun l => before = l ∧ Paired s place l) close
      fun _ l =>
        Paired s place l ∧
        l.index.session.dirty = false ∧
        l.index.known = before.index.known ∧
        (before.index.IsLoaded → l.index.IsLoaded) := by
  have hMark :
      Work.Ends
        (fun l =>
          Housed s place l ∧ l.index = before.index ∧
          (l.index.IsLoaded → Mirrored s place l))
        markClean
        fun _ l =>
          Paired s place l ∧
          l.index.session.dirty = false ∧
          l.index.known = before.index.known ∧
          (before.index.IsLoaded → l.index.IsLoaded) := by
    rintro l value m ⟨hHoused, hIndex, hMirrored⟩ hRun
    rcases ends_markClean l value m ⟨hHoused, hMirrored⟩ hRun with
      ⟨hPaired, hClean⟩
    cases hRun
    rw [← hIndex]
    exact ⟨hPaired, hClean, rfl, fun hLoaded => hLoaded⟩
  unfold close
  refine Work.ends_get.bind fun l => ?_
  dsimp only
  split
  · have hSave :
        Work.Ends
          (fun l => Housed s place l ∧ l.index = before.index)
          save
          fun _ l =>
            Housed s place l ∧ l.index = before.index ∧
              Mirrored s place l :=
      ends_save (P := fun i => i = before.index)
    refine (hSave.of_imp ?_).bind fun _ => ?_
    · rintro state ⟨rfl, rfl, hPaired⟩
      exact ⟨hPaired.housed, rfl⟩
    · exact hMark.of_imp fun _ hState =>
        ⟨hState.1, hState.2.1, fun _ => hState.2.2⟩
  · next hNot =>
      refine hMark.of_imp ?_
      rintro state ⟨rfl, rfl, hPaired⟩
      refine ⟨hPaired.housed, rfl, ?_⟩
      intro hLoaded
      apply hPaired.mirrored hLoaded
      simpa [hPaired.housed.cacheDir] using hNot

end Loader

end SymbolAtlas

------------------------------------------------------------
-- Turns
------------------------------------------------------------

namespace SymbolAtlas

namespace Loader

/- What a loader does: it is called, or it joins a chain. -/
inductive Action where
  | ask (call : Call)
  | join (chain : List Hook) (atFront : Bool)
deriving DecidableEq, Repr

def Action.run : Action → Work Unit
| .ask call => call.run
| .join chain atFront => do
    let _ ← Loader.register chain atFront

variable {s : Store} {place : Place}

/- An action saves or flags whatever it changes. -/
theorem ends_action
    (action : Action) :
    Work.Ends (Paired s place) action.run
      fun _ => Paired s place := by
  have hOnly {α : Type} {w : Work α} {Q : α → Loader → Prop}
      (hWork : Work.Ends (Paired s place) w Q)
      (hPaired : ∀ value l, Q value l → Paired s place l) :
      Work.Ends (Paired s place) (w >>= fun _ => pure ())
        fun _ => Paired s place :=
    hWork.bind fun value =>
      Work.ends_pure fun l hEnd => hPaired value l hEnd
  cases action with
  | join chain atFront =>
      exact hOnly (ends_register chain atFront) fun _ _ hEnd => hEnd
  | ask call =>
      cases call with
      | resolve symbol =>
          exact hOnly (ends_resolve symbol) fun _ _ hEnd => hEnd.1
      | autoload symbol =>
          exact (ends_autoload symbol).mono fun _ _ hEnd => hEnd.1
      | listing =>
          refine hOnly (Q := fun _ => Opened s place) ?_
            fun _ _ hEnd => hEnd.1
          refine ends_loadCache.bind fun _ => ?_
          refine Work.ends_get.bind fun l => ?_
          exact Work.ends_pure fun _ hState => hState.2
      | refresh => exact ends_refresh
      | rebuild => exact ends_rebuild
      | close =>
          intro l value m hPaired hRun
          exact (ends_close l l value m ⟨rfl, hPaired⟩ hRun).1

/-
  The disk has only changed elsewhere: the settings still lead
  to the store, and its files are the same.
-/
structure Elsewhere
    (s : Store)
    (place : Place)
    (l : Loader)
    (d : Disk) : Prop where
  housed : Housed s place (l.onDisk d)
  files :
    ∀ suffix ∈ Store.suffixes,
      d.node? (place ++ [s.key ++ suffix]) =
        l.desk.disk.node? (place ++ [s.key ++ suffix])

@[simp] theorem disk_onDisk
    (l : Loader)
    (d : Disk) :
    (l.onDisk d).desk.disk = d :=
  rfl

@[simp] theorem settings_onDisk
    (l : Loader)
    (d : Disk) :
    (l.onDisk d).settings = l.settings :=
  rfl

/-
  What may come next: an action that succeeds, or a change of the
  disk elsewhere.
-/
inductive Turn (s : Store) (place : Place) :
    Loader → Loader → Prop
| done {l m : Loader} (action : Action)
    (hRun : action.run l = .ok () m) :
    Turn s place l m
| changed {l : Loader} {d : Disk}
    (hElsewhere : Elsewhere s place l d) :
    Turn s place l (l.onDisk d)

variable {l m : Loader} {d : Disk}

theorem Elsewhere.offers
    (hElsewhere : Elsewhere s place l d)
    {k : Snapshot}
    (hOffers : s.Offers l.desk.disk place k) :
    s.Offers d place k :=
  hOffers.of_node?_eq (hElsewhere.files ".json" (by decide))

theorem Paired.of_turn
    (hPaired : Paired s place l)
    (hTurn : Turn s place l m) :
    Paired s place m := by
  cases hTurn with
  | done action hRun => exact ends_action action l () m hPaired hRun
  | changed hElsewhere =>
      refine ⟨hElsewhere.housed, ?_⟩
      intro hLoaded hClean
      rcases hPaired.mirrored hLoaded hClean with
        ⟨k, hOffers, hSame⟩
      exact ⟨k, hElsewhere.offers hOffers, hSame⟩

theorem paired_of_turns
    (hPaired : Paired s place l)
    (hRun : Relation.ReflTransGen (Turn s place) l m) :
    Paired s place m := by
  induction hRun with
  | refl => exact hPaired
  | tail _ hTurn ih => exact ih.of_turn hTurn

/- A loader that starts knows nothing. -/
theorem index_of_start
    {settings : Settings}
    {desk begun : Desk}
    (hStart : start settings desk = .ok l begun) :
    l.index = {} := by
  rw [eq_of_start hStart]

theorem paired_of_start
    {settings : Settings}
    {desk begun : Desk}
    (hStart : start settings desk = .ok l begun)
    (hHoused : Housed s place l) :
    Paired s place l := by
  refine ⟨hHoused, ?_⟩
  intro hLoaded
  rw [index_of_start hStart] at hLoaded
  cases hLoaded

/- What a loader does that has not loaded its cache. -/
theorem loadCache_of_not_loaded
    (hStore : store l = .ok s l)
    (hNot : ¬ l.index.IsLoaded) :
    loadCache l =
      (s.load Others.absent onDesk build >>= fun k =>
        onIndex (fun _ => Index.restore k) >>= fun _ =>
          markLoaded) l := by
  unfold loadCache
  rw [Work.bind_of_ok (Work.get_eq l),
    if_pos (by simpa [Index.IsLoaded] using hNot),
    Work.bind_of_ok hStore]

/-
  What the store has is loaded, unless it cannot be told that it
  was found.
-/
theorem load_of_offers
    {k : Snapshot}
    (hHoused : Housed s place l)
    (hOffers : s.Offers l.desk.disk place k) :
    (∃ notices,
      s.load Others.absent onDesk build l =
        .ok k { l with
          desk := { l.desk with notices := notices } }) ∨
    ∃ error,
      s.isDebug = true ∧
      (Notice.cacheHit s.path).check = .error error ∧
      s.load Others.absent onDesk build l = .error error l := by
  have hSeek :=
    hOffers.seek_eq hHoused.not_mem_key hHoused.clear Others.absent
  unfold Store.load
  rcases s.debug_cases (.cacheHit s.path) l.desk with
    ⟨notices, hTold⟩ | ⟨error, hDebug, hCheck, hError⟩
  · left
    have hFound :
        onDesk (s.seek Others.absent) l =
          .ok (.inl k) { l with
            desk := { l.desk with notices := notices } } := by
      unfold onDesk
      rw [hSeek, Work.bind_of_ok hTold]
      rfl
    rw [Work.bind_of_ok hFound]
    exact ⟨notices, rfl⟩
  · right
    have hFails :
        onDesk (s.seek Others.absent) l = .error error l := by
      unfold onDesk
      rw [hSeek, Work.bind_of_error hError]
    rw [Work.bind_of_error hFails]
    exact ⟨error, hDebug, hCheck, rfl⟩

theorem loadCache_of_offers
    {k : Snapshot}
    (hHoused : Housed s place l)
    (hNot : ¬ l.index.IsLoaded)
    (hOffers : s.Offers l.desk.disk place k) :
    (∃ notices,
      loadCache l =
        .ok () { l with
          desk := { l.desk with notices := notices }
          index :=
            { l.index with
              known := k
              session := { l.index.session with cacheLoaded := true }
              notices := [] } }) ∨
    ∃ error,
      s.isDebug = true ∧
      (Notice.cacheHit s.path).check = .error error ∧
      loadCache l = .error error l := by
  rw [loadCache_of_not_loaded hHoused.store hNot]
  rcases load_of_offers hHoused hOffers with
    ⟨notices, hLoad⟩ | ⟨error, hDebug, hCheck, hError⟩
  · rw [Work.bind_of_ok hLoad]
    exact Or.inl ⟨_, rfl⟩
  · rw [Work.bind_of_error hError]
    exact Or.inr ⟨error, hDebug, hCheck, rfl⟩

/- Only settings and disk decide on the store. -/
theorem Housed.newOn
    (hHoused : Housed s place l) :
    Housed s place (newOn l.settings l.desk.disk) :=
  hHoused.of_sameDesk rfl rfl

/-
  A loader that has loaded its cache and has nothing to save
  knows what its artifact says. After it was closed, the next
  loader starts with exactly that, whatever has changed elsewhere
  meanwhile. It fails only if it cannot tell about the artifact.
-/
theorem clean_loader_mirrors_artifact
    {settings : Settings}
    {desk begun : Desk}
    {first last : Loader}
    (hStart : start settings desk = .ok first begun)
    (hHoused : Housed s place first)
    (hRun : Relation.ReflTransGen (Turn s place) first last)
    (hLoaded : last.index.IsLoaded) :
    (last.index.session.dirty = false →
      ∃ k,
        s.read last.desk = .ok (some k) last.desk ∧
        k.SameMaps last.index.known) ∧
    ∀ {closed : Loader} {e : Disk},
      close last = .ok () closed →
      Elsewhere s place closed e →
        start closed.settings ⟨e, []⟩ =
          .ok (newOn closed.settings e) ⟨e, []⟩ ∧
        ((∃ next,
          loadCache (newOn closed.settings e) = .ok () next ∧
          next.index.known.SameMaps closed.index.known) ∨
        ∃ error,
          s.isDebug = true ∧
          (Notice.cacheHit s.path).check = .error error ∧
          loadCache (newOn closed.settings e) =
            .error error (newOn closed.settings e)) := by
  have hPaired := paired_of_turns (paired_of_start hStart hHoused) hRun
  refine ⟨?_, ?_⟩
  · intro hClean
    rcases hPaired.mirrored hLoaded hClean with
      ⟨k, hOffers, hSame⟩
    exact ⟨k, hOffers.read_eq hPaired.housed.not_mem_key
      hPaired.housed.clear, hSame⟩
  · intro closed e hClose hElsewhere
    rcases ends_close last last () closed ⟨rfl, hPaired⟩ hClose with
      ⟨hClosed, hClean, -, hStill⟩
    rcases hClosed.mirrored (hStill hLoaded) hClean with
      ⟨k, hOffers, hSame⟩
    have hNext : Housed s place (newOn closed.settings e) :=
      hElsewhere.housed.newOn
    have hDirectory :
        ∀ path, closed.settings.cacheDir = some path →
          e.HasDirectory path place := by
      intro path hPath
      have hDir := hNext.cacheDir.symm.trans hPath
      rw [Option.some.injEq] at hDir
      rw [← hDir]
      exact hElsewhere.housed.clear.directory
    have hNot : ¬ (newOn closed.settings e).index.IsLoaded :=
      Bool.false_ne_true
    refine ⟨start_eq hDirectory, ?_⟩
    rcases loadCache_of_offers hNext hNot
        (hElsewhere.offers hOffers) with
      ⟨notices, hLoad⟩ | hError
    · exact Or.inl ⟨_, hLoad, hSame⟩
    · exact Or.inr hError

end Loader

end SymbolAtlas

------------------------------------------------------------
-- A Root behind a Link
------------------------------------------------------------

namespace SymbolAtlas

namespace Loader

/- The settings are seen to lead to the store. -/
def SeenHoused
    (s : Store)
    (place : Place)
    (l : Loader) : Prop :=
  l.settings.cacheDir = some s.directory ∧
  l.settings.isDebug = s.isDebug ∧
  Datum.usualRoom = s.room ∧
  (Key.ofSettings l.settings l.desk.disk).toOption =
    some s.key ∧
  (Route.ofText s.directory).isRooted = true ∧
  (l.desk.disk.reach Disk.linkLimit []
    (Route.ofText s.directory).names).toOption = some place ∧
  l.desk.disk.IsTree ∧
  ∀ suffix ∈ Store.suffixes,
    Disk.wayAt
      (l.desk.disk.node? (place ++ [s.key ++ suffix])) = .stops

instance
    (s : Store)
    (place : Place)
    (l : Loader) :
    Decidable (SeenHoused s place l) := by
  unfold SeenHoused
  infer_instance

theorem SeenHoused.housed
    {s : Store}
    {place : Place}
    {l : Loader}
    (hSeen : SeenHoused s place l) :
    Housed s place l := by
  rcases hSeen with
    ⟨hDir, hDebug, hRoom, hKey, hRooted, hPlace, hTree, hStops⟩
  refine ⟨?_, ⟨?_, ?_⟩, hTree⟩
  · apply store_eq_ok_iff.mpr
    exact ⟨_, _, hDir, Work.toOption_eq_some_iff.mp hKey,
      by rw [hDebug, hRoom]⟩
  · have hStart : l.desk.disk.startOf s.directory = [] :=
      if_pos hRooted
    refine ⟨?_, ?_⟩
    · rw [hStart]
      exact Disk.grounded_nil _
    · rw [hStart]
      exact Work.toOption_eq_some_iff.mp hPlace
  · intro suffix hSuffix target
    exact Disk.not_link_of_stops (hStops suffix hSuffix) target

/- The call succeeds. -/
def Call.succeeds (l : Loader) (call : Call) : Bool :=
  match call.run l with
  | .ok _ _ => true
  | .error _ _ => false

theorem Call.run_of_succeeds
    {l : Loader}
    {call : Call}
    (hSucceeds : call.succeeds l = true) :
    call.run l = .ok () (call.after l) := by
  unfold succeeds at hSucceeds
  unfold after
  cases hRun : call.run l with
  | ok value m => rfl
  | error error m =>
      rw [hRun] at hSucceeds
      cases hSucceeds

/- A root that is a link to the first of two directories. -/
def linkedSettings : Settings where
  projectDir := "/w"
  roots := ["lib"]
  cacheDir := some "/w/cache"

def linkedDisk : Disk where
  nodes := [
    (["w"], .newDirectory),
    (["w", "cache"], .newDirectory),
    (["w", "lib"], .link "v1"),
    (["w", "v1"], .newDirectory),
    (["w", "v1", "a.php"], .file "<?php class X {}".toUTF8 1000),
    (["w", "v2"], .newDirectory),
    (["w", "v2", "b.php"], .file "<?php class Y {}".toUTF8 1000)]

def linkedStore : Store where
  directory := "/w/cache"
  key := "de4137ad9ea9ccb68cdbe02e73e2f8f3"

/- All has been scanned and saved. -/
def linkedLoader : Loader :=
  Call.rebuild.after (newOn linkedSettings linkedDisk)

/- A source is added, and a symbol is missed. -/
def extendedLoader : Loader :=
  linkedLoader.onDisk
    (linkedLoader.desk.disk.put ["w", "v1", "c.php"]
      (.file "<?php".toUTF8 2000))

def missingLoader : Loader :=
  (Call.resolve "Z").after extendedLoader

theorem linked_run :
    SeenHoused linkedStore ["w", "cache"]
      (newOn linkedSettings linkedDisk) ∧
    Call.rebuild.succeeds (newOn linkedSettings linkedDisk) =
      true ∧
    SeenHoused linkedStore ["w", "cache"] extendedLoader ∧
    (Call.resolve "Z").succeeds extendedLoader = true ∧
    missingLoader.index.session.cacheLoaded = true ∧
    Call.close.succeeds missingLoader = true ∧
    (Call.close.after missingLoader).index.known.missing.get?
      "Z" = some 1 := by
  decide +kernel

/- The next loader knows which symbol was missed. -/
theorem missed_symbol_is_remembered :
    ∃ next,
      loadCache (newOn
        (Call.close.after missingLoader).settings
        (Call.close.after missingLoader).desk.disk) =
          .ok () next ∧
      next.index.known.missing.get? "Z" = some 1 := by
  rcases linked_run with
    ⟨hFirst, hRebuild, hExtended, hResolve, hLoaded, hClose,
      hMissing⟩
  have hHoused := hFirst.housed
  have hDirectory :
      ∀ path, linkedSettings.cacheDir = some path →
        linkedDisk.HasDirectory path ["w", "cache"] := by
    rintro path ⟨⟩
    exact hHoused.clear.directory
  have hStart :
      start linkedSettings ⟨linkedDisk, []⟩ =
        .ok (newOn linkedSettings linkedDisk) ⟨linkedDisk, []⟩ :=
    start_eq hDirectory
  have hFiles :
      ∀ suffix ∈ Store.suffixes,
        extendedLoader.desk.disk.node?
            (["w", "cache"] ++ [linkedStore.key ++ suffix]) =
          linkedLoader.desk.disk.node?
            (["w", "cache"] ++ [linkedStore.key ++ suffix]) := by
    intro suffix _
    unfold extendedLoader
    rw [disk_onDisk, Disk.node?_put (by simp), if_neg (by simp)]
  have hScanned :
      Turn linkedStore ["w", "cache"]
        (newOn linkedSettings linkedDisk) linkedLoader :=
    .done (.ask .rebuild) (Call.run_of_succeeds hRebuild)
  have hAdded :
      Turn linkedStore ["w", "cache"] linkedLoader
        extendedLoader :=
    .changed ⟨hExtended.housed, hFiles⟩
  have hMissed :
      Turn linkedStore ["w", "cache"] extendedLoader
        missingLoader :=
    .done (.ask (.resolve "Z")) (Call.run_of_succeeds hResolve)
  have hRun :=
    ((Relation.ReflTransGen.single hScanned).tail hAdded).tail
      hMissed
  have hClosed :=
    paired_of_turns (paired_of_start hStart hHoused)
      (hRun.tail (.done (.ask .close)
        (Call.run_of_succeeds hClose)))
  have hNext :=
    (clean_loader_mirrors_artifact hStart hHoused hRun hLoaded).2
      (Call.run_of_succeeds hClose)
      ⟨hClosed.housed.of_sameDesk (settings_onDisk _ _)
        (disk_onDisk _ _), fun _ _ => rfl⟩
  rcases hNext.2 with ⟨next, hLoad, hSame⟩ | ⟨error, hDebug, -⟩
  · refine ⟨next, hLoad, ?_⟩
    rw [hSame.missing]
    exact hMissing
  · cases hDebug

/- The link is led to the other directory. -/
def relinkedLoader : Loader :=
  linkedLoader.onDisk
    (linkedLoader.desk.disk.put ["w", "lib"] (.link "v2"))

def relinkedStore : Store where
  directory := "/w/cache"
  key := "8a0004824df2674f2bc7c31e57ec27ef"

theorem relinked_run :
    Call.rebuild.succeeds (newOn linkedSettings linkedDisk) =
      true ∧
    Call.close.succeeds relinkedLoader = true ∧
    (Call.close.after relinkedLoader).index.session =
      { cacheLoaded := true, refreshed := true, walks := 1 } ∧
    (Call.close.after relinkedLoader).index.known.symbols.get?
      "X" = some ⟨"/w/v1/a.php", 1000⟩ ∧
    SeenHoused relinkedStore ["w", "cache"]
      (Call.close.after relinkedLoader) ∧
    (Call.close.after relinkedLoader).desk.disk.read
      relinkedStore.path = .error .noEntry ∧
    Call.listing.succeeds
      (newOn linkedSettings
        (Call.close.after relinkedLoader).desk.disk) = true ∧
    (Call.listing.after
      (newOn linkedSettings
        (Call.close.after
          relinkedLoader).desk.disk)).index.known.symbols.get?
            "X" = none := by
  decide +kernel

/-
  A loader that was closed has no artifact if its root leads
  elsewhere now, and the next loader starts with other symbols.
-/
theorem relinked_root_starts_anew :
    (∀ name,
      relinkedLoader.desk.disk.node? (["w", "cache"] ++ [name]) =
        linkedLoader.desk.disk.node?
          (["w", "cache"] ++ [name])) ∧
    ∃ closed next,
      Call.rebuild.run (newOn linkedSettings linkedDisk) =
        .ok () linkedLoader ∧
      Call.close.run relinkedLoader = .ok () closed ∧
      closed.index.IsLoaded ∧
      closed.index.session.dirty = false ∧
      store closed = .ok relinkedStore closed ∧
      relinkedStore.read closed.desk = .ok none closed.desk ∧
      Call.listing.run (newOn linkedSettings closed.desk.disk) =
        .ok () next ∧
      ¬ next.index.known.SameMaps closed.index.known := by
  rcases relinked_run with
    ⟨hRebuild, hClose, hSession, hKnown, hSeen, hRead, hListing,
      hOther⟩
  refine ⟨?_, _, _, Call.run_of_succeeds hRebuild,
    Call.run_of_succeeds hClose, ?_, ?_, hSeen.housed.store, ?_,
    Call.run_of_succeeds hListing, ?_⟩
  · intro name
    unfold relinkedLoader
    rw [disk_onDisk, Disk.node?_put (by simp), if_neg (by simp)]
  · unfold Index.IsLoaded
    rw [hSession]
  · rw [hSession]
  · unfold Store.read
    rw [Work.bind_of_ok (Work.get_eq _), hRead]
    rfl
  · intro hSame
    have hSymbol := hSame.symbols "X"
    rw [hOther, hKnown] at hSymbol
    cases hSymbol

end Loader

end SymbolAtlas
