import SymbolAtlas.Loader
import SymbolAtlas.Proofs.Index.Keeping
import SymbolAtlas.Proofs.Store.Artifacts

/-
  What the work of a loader is made of.

  A loader takes its index from the store, lets the index scan,
  and saves it. Each of these may fail. The disk is only changed
  by saves, and what is known is only changed by loads and by
  the index itself.

  Key definitions:
    * `Loader.context`, `Loader.SameDesk`
    * `Loader.Steady`, `Loader.Fresh`, `Loader.Sound`
  Key theorems:
    * `Loader.eq_of_start`
    * `Loader.loadCache_cases`
    * `Loader.scan_cases`, `Loader.lookup_cases`
    * `Loader.save_cases`
-/

------------------------------------------------------------
-- The Same Desk
------------------------------------------------------------

namespace SymbolAtlas

namespace Loader

/- What the index of a loader works on. -/
def context (l : Loader) : Index.Context :=
  ⟨l.desk.disk, l.settings, l.strict⟩

/- The number of times that everything was scanned. -/
def walks (l : Loader) : Nat :=
  l.index.session.walks

/- Nothing that an index works on has changed. -/
structure SameDesk (l m : Loader) : Prop where
  settings : m.settings = l.settings
  strict : m.strict = l.strict
  disk : m.desk.disk = l.desk.disk

variable {l m : Loader}

theorem SameDesk.refl
    (l : Loader) :
    SameDesk l l :=
  ⟨rfl, rfl, rfl⟩

theorem SameDesk.context_eq
    (hSame : SameDesk l m) :
    m.context = l.context := by
  unfold context
  rw [hSame.settings, hSame.strict, hSame.disk]

theorem sameDesk_withIndex
    (l : Loader)
    (i : Index) :
    SameDesk l (l.withIndex i) :=
  ⟨rfl, rfl, rfl⟩

/- A loader that starts has the disk and knows nothing yet. -/
theorem eq_of_start
    {settings : Settings}
    {desk begun : Desk}
    (hStart : start settings desk = .ok l begun) :
    l =
      { settings := settings
        strict := settings.reportParseErrors
        desk := ⟨begun.disk, []⟩ } := by
  unfold start at hStart
  cases hDir : settings.cacheDir with
  | none =>
      rw [hDir] at hStart
      cases hStart
      rfl
  | some dir =>
      rw [hDir] at hStart
      rcases Work.exists_of_bind_eq_ok hStart with
        ⟨name, middle, -, hReady⟩
      cases hReady
      rfl

@[simp] theorem session_withIndex
    (l : Loader)
    (i : Index) :
    (l.withIndex i).index.session = i.session :=
  rfl

section OnIndex

variable {α : Type} {w : Index.Context → Index.Work α}

theorem onIndex_of_ok
    {value : α}
    {i : Index}
    (hRun : w l.context l.index = .ok value i) :
    onIndex w l = .ok value (l.withIndex i) := by
  unfold context at hRun
  unfold onIndex
  rw [hRun]

theorem onIndex_of_error
    {error : Error}
    {i : Index}
    (hRun : w l.context l.index = .error error i) :
    onIndex w l = .error error (l.withIndex i) := by
  unfold context at hRun
  unfold onIndex
  rw [hRun]

end OnIndex

theorem store_eq_ok_iff
    {s : Store} :
    store l = .ok s l ↔
      ∃ dir key,
        l.settings.cacheDir = some dir ∧
        Key.ofSettings l.settings l.desk.disk = .ok key ∧
        s = {
          directory := dir
          key := key
          isDebug := l.settings.isDebug } := by
  unfold store
  simp only [bind, EStateM.bind, Work.get_eq]
  cases l.settings.cacheDir with
  | none =>
      constructor
      · intro hStore
        cases hStore
      · rintro ⟨_, _, hDir, -⟩
        cases hDir
  | some dir =>
      cases Key.ofSettings l.settings l.desk.disk with
      | error error =>
          constructor
          · intro hStore
            cases hStore
          · rintro ⟨_, _, -, hKey, -⟩
            cases hKey
      | ok key =>
          constructor
          · intro hStore
            cases hStore
            exact ⟨dir, key, rfl, rfl, rfl⟩
          · rintro ⟨_, _, hDir, hKey, rfl⟩
            cases hDir
            cases hKey
            rfl

/- There is the usual room for reading in it. -/
theorem room_of_store
    {s : Store}
    (hStore : store l = .ok s l) :
    s.room = Datum.usualRoom := by
  rcases store_eq_ok_iff.mp hStore with ⟨_, _, -, -, rfl⟩
  rfl

/-
  The settings lead to the store, and the entry of the symbol is
  right.
-/
structure Steady
    (s : Store)
    (symbol : String)
    (entry : Entry)
    (l : Loader) : Prop where
  store : Loader.store l = .ok s l
  right : Index.StillRight l.context symbol entry

instance
    (s : Store)
    (symbol : String)
    (entry : Entry)
    (l : Loader) :
    Decidable (Steady s symbol entry l) :=
  decidable_of_iff
    ((l.settings.cacheDir = some s.directory ∧
        (Key.ofSettings l.settings l.desk.disk).toOption =
          some s.key ∧
        l.settings.isDebug = s.isDebug ∧
        Datum.usualRoom = s.room) ∧
      Index.StillRight l.context symbol entry) (by
    constructor
    · rintro ⟨⟨hDir, hKey, hDebug, hRoom⟩, hRight⟩
      refine ⟨store_eq_ok_iff.mpr ⟨_, s.key, hDir, ?_, ?_⟩,
        hRight⟩
      · exact Work.toOption_eq_some_iff.mp hKey
      · rw [hDebug, hRoom]
    · rintro ⟨hStore, hRight⟩
      rcases store_eq_ok_iff.mp hStore with
        ⟨dir, key, hDir, hKey, rfl⟩
      exact ⟨⟨hDir, Work.toOption_eq_some_iff.mpr hKey, rfl, rfl⟩,
        hRight⟩)

variable {s : Store} {symbol : String} {entry : Entry}

theorem Steady.of_sameDesk
    (hSteady : Steady s symbol entry l)
    (hSame : SameDesk l m) :
    Steady s symbol entry m := by
  refine ⟨?_, ?_⟩
  · rw [store_eq_ok_iff, hSame.settings, hSame.disk,
      ← store_eq_ok_iff]
    exact hSteady.store
  · rw [hSame.context_eq]
    exact hSteady.right

theorem Steady.cacheDir_isSome
    (hSteady : Steady s symbol entry l) :
    l.settings.cacheDir.isSome = true := by
  rcases store_eq_ok_iff.mp hSteady.store with ⟨_, _, hDir, -, -⟩
  rw [hDir]
  rfl

theorem Steady.not_mem_key
    (hSteady : Steady s symbol entry l) :
    '/' ∉ s.key.toList := by
  rcases store_eq_ok_iff.mp hSteady.store with ⟨_, key, -, hKey, rfl⟩
  exact Key.not_mem_ofSettings hKey

end Loader

end SymbolAtlas

------------------------------------------------------------
-- Loads
------------------------------------------------------------

namespace SymbolAtlas

namespace Loader

/- A loader that was not asked yet, with its artifact. -/
structure Fresh
    (s : Store)
    (place : Place)
    (content : ByteArray)
    (l : Loader) : Prop where
  index : l.index = {}
  holds : s.Holds l.desk.disk place content

/-
  A loader at work. Its artifact is in order, and the symbol is
  known to be in its file unless everything was scanned.
-/
structure Sound
    (s : Store)
    (place : Place)
    (symbol : String)
    (entry : Entry)
    (l : Loader) : Prop where
  cacheLoaded : l.index.session.cacheLoaded = true
  holds : ∃ content, s.Holds l.desk.disk place content
  allAt : l.index.known.AllAt entry
  kept :
    l.index.known.Maps entry.file symbol ∨
      l.index.session.refreshed = true

variable {l m : Loader} {s : Store} {place : Place}
variable {symbol : String} {entry : Entry}
variable {content : ByteArray} {k : Snapshot}

theorem loadCache_of_loaded
    (hLoaded : l.index.session.cacheLoaded = true) :
    loadCache l = .ok () l := by
  have hGet : (get : Work Loader) l = .ok l l := rfl
  unfold loadCache
  rw [Work.bind_of_ok hGet, hLoaded]
  rfl

/- An artifact that can be read is loaded, or nothing happens. -/
theorem load_of_read
    (hRead : l.desk.disk.read s.path = .ok content)
    (hArtifact : Snapshot.ofArtifact content s.room = .ok k) :
    (∃ notices,
      s.load Others.absent onDesk build l =
        .ok k { l with
          desk := { l.desk with notices := notices } }) ∨
    ∃ error,
      s.load Others.absent onDesk build l = .error error l := by
  unfold Store.load
  rcases Store.seek_of_read hRead hArtifact Others.absent with
    ⟨notices, hSeek⟩ | ⟨error, hSeek⟩
  · left
    have hDesk :
        onDesk (s.seek Others.absent) l =
          .ok (.inl k) { l with
            desk := { l.desk with notices := notices } } := by
      unfold onDesk
      rw [hSeek]
    rw [Work.bind_of_ok hDesk]
    exact ⟨notices, rfl⟩
  · right
    have hDesk :
        onDesk (s.seek Others.absent) l = .error error l := by
      unfold onDesk
      rw [hSeek]
    rw [Work.bind_of_error hDesk]
    exact ⟨error, rfl⟩

/- The first load takes the artifact, or nothing happens. -/
theorem loadCache_of_fresh
    (hFresh : Fresh s place content l)
    (hSteady : Steady s symbol entry l)
    (hArtifact : Snapshot.ofArtifact content = .ok k) :
    (∃ m,
      loadCache l = .ok () m ∧ SameDesk l m ∧
      m.index =
        { known := k, session := { cacheLoaded := true } }) ∨
    ∃ error, loadCache l = .error error l := by
  have hLoad :
      loadCache l =
        (store >>= fun s =>
          s.load Others.absent onDesk build >>= fun snapshot =>
            onIndex (fun _ => Index.restore snapshot) >>=
              fun _ => markLoaded) l := by
    have hGet : (get : Work Loader) l = .ok l l := rfl
    unfold loadCache
    rw [Work.bind_of_ok hGet, if_pos (by rw [hFresh.index]; rfl)]
  rw [← room_of_store hSteady.store] at hArtifact
  rw [hLoad, Work.bind_of_ok hSteady.store]
  rcases load_of_read
      (hFresh.holds.read_eq hSteady.not_mem_key) hArtifact with
    ⟨notices, hRead⟩ | ⟨error, hRead⟩
  · left
    rw [Work.bind_of_ok hRead]
    refine ⟨_, rfl, ⟨rfl, rfl, rfl⟩, ?_⟩
    simp only [withIndex, hFresh.index]
  · right
    rw [Work.bind_of_error hRead]
    exact ⟨error, rfl⟩

end Loader

end SymbolAtlas

------------------------------------------------------------
-- Scans
------------------------------------------------------------

namespace SymbolAtlas

namespace Loader

/- Once it is loaded, the index has the symbol in its file. -/
def Keeps (symbol : String) (entry : Entry) (l : Loader) : Prop :=
  l.index.session.cacheLoaded = true →
    l.index.known.Maps entry.file symbol

/-
  Nothing was scanned and the symbol is where it was, or all was
  scanned and the symbol is in its file, or that went wrong.
-/
def Scans
    (symbol : String)
    (entry : Entry)
    (l m : Loader)
    (failed : Prop) : Prop :=
  (m.walks = l.walks ∧
    (Keeps symbol entry l ↔ Keeps symbol entry m)) ∨
  (m.walks = l.walks + 1 ∧ (Keeps symbol entry m ∨ failed))

variable {l m : Loader} {s : Store} {place : Place}
variable {symbol : String} {entry : Entry}

theorem Sound.keeps_iff
    (hSound : Sound s place symbol entry l) :
    Keeps symbol entry l ↔
      l.index.known.Maps entry.file symbol :=
  ⟨fun hKeeps => hKeeps hSound.cacheLoaded, fun hMaps _ => hMaps⟩

/- A rebuild leaves the loader sound, whatever its outcome. -/
theorem sound_rebuilt
    (hSteady : Steady s symbol entry l)
    (hHolds : ∃ content, s.Holds l.desk.disk place content)
    {i : Index}
    (hLoaded : i.session.cacheLoaded = true) :
    Sound s place symbol entry
      (l.withIndex
        (Work.stateAfter (Index.rebuild l.context i))) := by
  have hSession := Index.session_rebuild l.context i
  refine ⟨?_, hHolds, Index.allAt_rebuild hSteady.right i, ?_⟩
  · rw [session_withIndex, hSession]
    exact hLoaded
  · right
    rw [session_withIndex, hSession]

theorem walks_rebuilt
    (l : Loader)
    (i : Index) :
    (l.withIndex
      (Work.stateAfter (Index.rebuild l.context i))).walks =
        i.session.walks + 1 := by
  unfold walks
  rw [session_withIndex, Index.session_rebuild]

/- A look-up leaves the loader sound, whatever its outcome. -/
theorem lookup_cases
    (hSteady : Steady s symbol entry l)
    (hSound : Sound s place symbol entry l)
    (name : String) :
    Sound s place symbol entry
      (l.withIndex (Work.stateAfter
        (Index.lookup l.context name l.index))) ∧
    Scans symbol entry l
      (l.withIndex (Work.stateAfter
        (Index.lookup l.context name l.index)))
      (∃ error final,
        Index.lookup l.context name l.index =
          .error error final) := by
  by_cases hRescans : Index.Rescans l.context l.index name
  · have hRebuilt :=
      sound_rebuilt hSteady hSound.holds hSound.cacheLoaded
    have hWalks := walks_rebuilt l l.index
    have hFile :=
      Index.lookup_of_rescans hRescans entry.file
    rcases Index.lookup_scan_cases hRescans with
      ⟨error, final, hRebuild, hLookup⟩ |
      ⟨final, value, after, hRebuild, hLookup, hSession⟩
    · rw [hRebuild] at hRebuilt hWalks
      rw [hLookup]
      exact ⟨hRebuilt, Or.inr ⟨hWalks, Or.inr ⟨_, _, rfl⟩⟩⟩
    · rw [hRebuild, Work.stateAfter_ok] at hRebuilt hWalks hFile
      rw [hLookup, Work.stateAfter_ok] at hFile ⊢
      have hBefore :
          l.index.known.Maps entry.file symbol := by
        rcases hSound.kept with hMaps | hRefreshed
        · exact hMaps
        · rw [hRescans.2.2] at hRefreshed
          cases hRefreshed
      have hMaps : after.known.Maps entry.file symbol := by
        rw [← hFile.maps_iff]
        exact Index.maps_of_rebuild hSteady.right
          (Or.inl hBefore) hRebuild
      refine ⟨⟨?_, hSound.holds, ?_, Or.inl hMaps⟩,
        Or.inr ⟨?_, Or.inl fun _ => hMaps⟩⟩
      · exact hSession.cacheLoaded.trans hRebuilt.cacheLoaded
      · exact hRebuilt.allAt.of_sameFile hFile
      · exact hSession.walks.trans hWalks
  · have hFile :=
      Index.sameFile_lookup_of_not_rescans hSteady.right
        hSound.allAt hRescans
    have hSession := Index.sameScans_lookup hRescans
    have hAfter :
        Sound s place symbol entry
          (l.withIndex (Work.stateAfter
            (Index.lookup l.context name l.index))) := by
      refine ⟨?_, hSound.holds, ?_, ?_⟩
      · exact hSession.cacheLoaded.trans hSound.cacheLoaded
      · exact hSound.allAt.of_sameFile hFile
      · rcases hSound.kept with hMaps | hRefreshed
        · exact Or.inl ((hFile.maps_iff symbol).mp hMaps)
        · exact Or.inr (hSession.refreshed.trans hRefreshed)
    refine ⟨hAfter, Or.inl ⟨hSession.walks, ?_⟩⟩
    rw [hSound.keeps_iff, hAfter.keeps_iff]
    exact hFile.maps_iff symbol

end Loader

end SymbolAtlas

------------------------------------------------------------
-- Saves
------------------------------------------------------------

namespace SymbolAtlas

namespace Loader

variable {l : Loader} {s : Store} {place : Place}
variable {symbol : String} {entry : Entry}
variable {content : ByteArray}

/- A save changes the artifact or nothing but other files. -/
theorem save_cases
    (hSteady : Steady s symbol entry l)
    (hHolds : s.Holds l.desk.disk place content) :
    (∃ desk,
      save l = .ok () { l with desk := desk } ∧
      s.Holds desk.disk place l.index.known.artifact.toUTF8) ∨
    ∃ error desk,
      save l = .error error { l with desk := desk } ∧
      s.Holds desk.disk place content := by
  have hSave :
      save l = onDesk (s.save l.index.known) l := by
    have hGet : (get : Work Loader) l = .ok l l := rfl
    unfold save
    rw [Work.bind_of_ok hSteady.store, Work.bind_of_ok hGet]
  rw [hSave]
  unfold onDesk
  rcases Store.save_cases hSteady.not_mem_key hHolds
      l.index.known with
    ⟨final, hFinal, hAfter⟩ | ⟨error, final, hFinal, hAfter⟩
  · left
    rw [hFinal]
    exact ⟨final, rfl, hAfter⟩
  · right
    rw [hFinal]
    exact ⟨error, final, rfl, hAfter⟩

end Loader

end SymbolAtlas
