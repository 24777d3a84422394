import SymbolAtlas.Proofs.Loader.Joining
import SymbolAtlas.Proofs.Store.Unusable

/-
  Loading over an artifact that cannot be used.

  If reading the artifact does not break, a load takes what it
  holds or builds what it should hold. What was built replaces
  the artifact, and is read from it from then on.

  Key definitions:
    * `Loader.BuildsAnew`
  Key theorems:
    * `Loader.exists_loadCache_of_unusable`
    * `Loader.corrupt_artifact_is_replaced`
-/

------------------------------------------------------------
-- Building over an Artifact
------------------------------------------------------------

namespace SymbolAtlas

namespace Loader

/-
  A load searches in vain and builds while it holds the lock
  alone. If the building fails so does the load. What is built
  becomes the artifact, if nothing has got in its way.
-/
def BuildsAnew
    (s : Store)
    (content : ByteArray)
    (l : Loader) : Prop :=
  ∃ desk,
    s.seek Others.absent l.desk =
      .ok (.inr ⟨s.lockPath, true, some .exclusive⟩) desk ∧
    desk.disk.read s.path = .ok content ∧
    ∀ construct : Work Snapshot,
      (∀ error failed,
        construct { l with desk := desk } =
          .error error failed →
        s.load Others.absent onDesk construct l =
          .error error failed) ∧
      ∀ k built,
        construct { l with desk := desk } = .ok k built →
        k.isWritable = true →
        s.IsReady built.desk.disk →
        built.desk.disk.isFile s.lockPath = true →
        ∃ saved,
          s.load Others.absent onDesk construct l =
            .ok k saved ∧
          saved.desk.disk.read s.path = .ok k.artifact.toUTF8 ∧
          s.read saved.desk = .ok (some k.arranged) saved.desk

variable {s t : Store} {content : ByteArray} {l : Loader}

theorem BuildsAnew.of_alike
    (hAlike : s.Alike t)
    (hBuilds : BuildsAnew t content l) :
    BuildsAnew s content l := by
  rcases hBuilds with ⟨desk, hFound, hContent, hBuild⟩
  rw [hAlike.seek_eq, hAlike.lockPath] at hFound
  rw [hAlike.path] at hContent
  refine ⟨desk, hFound, hContent, fun construct => ?_⟩
  rw [← hAlike.load_eq onDesk construct, ← hAlike.path,
    ← hAlike.lockPath, ← hAlike.read_eq]
  refine ⟨(hBuild construct).1, ?_⟩
  intro k built hRun hWritable hReady
  exact (hBuild construct).2 k built hRun hWritable
    (hAlike.isReady hReady)

/- A store with a key that is one name builds anew. -/
theorem buildsAnew_of_unusable
    (hKey : '/' ∉ s.key.toList)
    (hReady : s.IsReady l.desk.disk)
    (hCanTell : s.CanTell)
    (hContent : l.desk.disk.read s.path = .ok content)
    (hHolds : ¬ s.BreaksOn content)
    (hNone :
      (Snapshot.ofArtifact content s.room).toOption = none) :
    BuildsAnew s content l := by
  have hClear : ∃ place, s.Clear l.desk.disk place := by
    unfold Disk.read at hContent
    cases hLocate : l.desk.disk.locate true s.path with
    | error fault =>
        rw [hLocate] at hContent
        cases hContent
    | ok found =>
        exact hReady.exists_clear hKey (by decide) hLocate
  rcases hClear with ⟨place, hClear⟩
  have hRoom := hReady.hasRoom hKey hClear
  have hNothing :=
    Store.offersNothing_of_content hContent hHolds hNone
  rcases hClear.exists_seek hKey hNothing (hRoom _ (by decide))
      hCanTell with
    ⟨desk, hSeek, hOpen⟩
  have hStill := hClear.read_openAppending hKey hOpen
  refine ⟨desk, hSeek, hStill.trans hContent, fun construct =>
    ⟨fun error failed hFails => ?_, ?_⟩⟩
  · unfold Store.load
    rw [Work.bind_of_ok (onDesk_of_ok hSeek)]
    dsimp only
    rw [Work.bind_of_error hFails]
  · intro k built hBuild hWritable hAfter hLock
    -- The lock is still there, so the directory is.
    rcases Disk.isFile_iff.mp hLock with
      ⟨_, held, time, hLocate⟩
    rcases hAfter.exists_clear hKey (by decide) hLocate with
      ⟨there, hThere⟩
    rcases hThere.exists_saveWith hKey
        (hAfter.hasRoom hKey hThere) hWritable
        ⟨s.lockPath, true, some .exclusive⟩ with
      ⟨last, hSave⟩
    have hSaved := hThere.saved_of_saveWith hKey hSave
    refine ⟨{ built with desk := last },
      load_of_built (onDesk_of_ok hSeek) hBuild
        (onDesk_of_ok hSave), ?_, hSaved.read_eq hKey hThere⟩
    exact (hThere.of_refiled hSaved.refiled).read_path hKey
      hSaved.artifact

/- What breaks a read breaks a load, which changes nothing. -/
theorem load_of_breaking
    {error : Error}
    (hRead : s.read l.desk = .error error l.desk)
    (construct : Work Snapshot) :
    s.load Others.absent onDesk construct l = .error error l := by
  have hSeek :
      onDesk (s.seek Others.absent) l = .error error l := by
    unfold onDesk Store.seek
    rw [Work.bind_of_error hRead]
  unfold Store.load
  rw [Work.bind_of_error hSeek]

/-
  A new loader over an artifact that cannot be used knows what a
  rebuild finds, if a rebuild would succeed.
-/
theorem exists_loadCache_of_unusable
    {place : Place}
    {r : Loader}
    (hHoused : Housed s place l)
    (hFresh : l.index = {})
    (hSound : l.desk.disk.IsSound)
    (hNoSource : HoldsNoSource s place l.context)
    (hContent : l.desk.disk.read s.path = .ok content)
    (hHolds : ¬ s.BreaksOn content)
    (hNone :
      (Snapshot.ofArtifact content s.room).toOption = none)
    (hCanTell : s.CanTell)
    (hRebuild : rebuild l = .ok () r) :
    ∃ m,
      loadCache l = .ok () m ∧
      s.Refiled place l.desk.disk m.desk.disk ∧
      m.context = { l.context with disk := m.desk.disk } ∧
      m.loaded = l.loaded ∧
      Filled m.context r.index.known m :=
  exists_loadCache_of_nothing hHoused hFresh hSound hNoSource
    (Store.offersNothing_of_content hContent hHolds hNone)
    hCanTell hRebuild

end Loader

end SymbolAtlas

------------------------------------------------------------
-- Whatever Is in the Artifact
------------------------------------------------------------

namespace SymbolAtlas

namespace Loader

/-
  For every content of the artifact, either it breaks every read
  and every load, which change nothing then; or a read gives the
  snapshot in it, if there is one, and else a load builds anew.
  Where the artifact can be told about, it breaks exactly if its
  brackets are nested too deep, or if the first reading that is
  no whole number is infinite, or is a text that cannot be quoted
  in a notice although all is told. A few more brackets than
  there is room for are too deep, whatever follows them.
-/
theorem corrupt_artifact_is_replaced
    (s : Store)
    (content : ByteArray) :
    (∀ l : Loader,
      l.desk.disk.read s.path = .ok content →
      (s.BreaksOn content ∧
        ∃ error,
          s.read l.desk = .error error l.desk ∧
          ∀ construct,
            s.load Others.absent onDesk construct l =
              .error error l) ∨
      (¬ s.BreaksOn content ∧
        (∃ notices,
          s.read l.desk =
            .ok (Snapshot.ofArtifact content s.room).toOption
              { l.desk with notices := notices }) ∧
        ((Snapshot.ofArtifact content s.room).toOption = none →
          s.IsReady l.desk.disk →
          s.CanTell →
          BuildsAnew s content l))) ∧
    (s.CanTell →
      (s.BreaksOn content ↔
        Snapshot.dataIn content s.room = .error .tooDeep ∨
        (∃ negative,
          Snapshot.StumblesAt content s.room
            (some (.real (.infinite negative)))) ∨
        s.isDebug = true ∧
        ∃ text,
          Snapshot.StumblesAt content s.room
            (some (.text text)) ∧
          (Notice.unusable s.path
            (Error.notWhole text).reason).check ≠ .ok ())) ∧
    ∀ (count : Nat) (rest : String),
      s.room + 3 < count →
        s.BreaksOn
          (String.ofList (List.replicate count '[') ++
            rest).toUTF8 := by
  refine ⟨fun l hContent => ?_, Store.breaksOn_iff,
    fun _ rest hCount => Store.breaksOn_brackets hCount rest⟩
  rcases Store.read_of_content hContent with
    ⟨hBreaks, error, hRead⟩ | ⟨hHolds, hRead⟩
  · left
    exact ⟨hBreaks, error, hRead, load_of_breaking hRead⟩
  · right
    refine ⟨hHolds, hRead, fun hNone hReady hCanTell => ?_⟩
    rcases s.exists_alike with ⟨t, hKey, hAlike⟩
    have hTell : t.CanTell := by
      unfold Store.CanTell
      rw [hAlike.isDebug, hAlike.path]
      exact hCanTell
    have hHoldsToo : ¬ t.BreaksOn content := by
      unfold Store.BreaksOn
      rw [hAlike.isDebug, hAlike.path, hAlike.room]
      exact hHolds
    rw [← hAlike.room] at hNone
    rw [← hAlike.path] at hContent
    exact (buildsAnew_of_unusable hKey (hAlike.isReady hReady)
      hTell hContent hHoldsToo hNone).of_alike hAlike

/- A loader over an artifact with some text. -/
def loaderOver (text : String) : Loader where
  settings := {}
  strict := true
  desk.disk.nodes := [
    (["c"], .newDirectory),
    (["c", "k.json"], .file text.toUTF8 7)]

/- An artifact that counts a miss as infinite. -/
def infiniteText : String :=
  "\x7b\"format\": \"v2\", \"symbols\": \x7b\x7d, " ++
    "\"missing\": \x7b\"A\": Infinity\x7d, " ++
    "\"empty_files\": \x7b\x7d\x7d"

/- An artifact that counts it with a tag. -/
def taggedText : String :=
  "\x7b\"format\": \"v2\", \"symbols\": \x7b\x7d, " ++
    "\"missing\": \x7b\"A\": \"[/dim]\"\x7d, " ++
    "\"empty_files\": \x7b\x7d\x7d"

/- An artifact of brackets, more than there usually is room for. -/
def deepText : String :=
  String.ofList (List.replicate 1000 '[') ++ "1"

/-
  What is no text of data is built anew. An infinite number
  breaks every load, deep brackets do, and a tag does if
  everything is told.
-/
theorem torn_and_breaking_artifacts :
    (∃ notices,
      Store.tellingStore.read (loaderOver "[").desk =
        .ok none
          { (loaderOver "[").desk with notices := notices }) ∧
    BuildsAnew Store.tellingStore "[".toUTF8 (loaderOver "[") ∧
    (∃ error, ∀ construct,
      Store.quietStore.load Others.absent onDesk construct
        (loaderOver infiniteText) =
          .error error (loaderOver infiniteText)) ∧
    (∃ error, ∀ construct,
      Store.quietStore.load Others.absent onDesk construct
        (loaderOver deepText) =
          .error error (loaderOver deepText)) ∧
    ∃ error, ∀ construct,
      Store.tellingStore.load Others.absent onDesk construct
        (loaderOver taggedText) =
          .error error (loaderOver taggedText) := by
  have hTell : Store.tellingStore.CanTell := by
    unfold Store.CanTell
    decide +kernel
  have hTorn :
      Snapshot.ofArtifact "[".toUTF8 Store.tellingStore.room =
        .error .malformedSnapshot := by
    decide +kernel
  have hInfinite :
      Snapshot.ofArtifact infiniteText.toUTF8
        Store.quietStore.room = .error .infiniteNumber := by
    decide +kernel
  have hTagged :
      Snapshot.ofArtifact taggedText.toUTF8
        Store.tellingStore.room =
          .error (.notWhole "[/dim]") := by
    decide +kernel
  have hShown :
      (Notice.unusable Store.tellingStore.path
        (Error.notWhole "[/dim]").reason).check =
          .error .unmatchedTag := by
    decide +kernel
  have hPlain :
      (Notice.unusable Store.tellingStore.path
        Error.malformedSnapshot.reason).check = .ok () := by
    decide +kernel
  have hReady :
      Store.tellingStore.IsReady (loaderOver "[").desk.disk :=
    ⟨⟨by decide +kernel, Disk.grounded_nil _,
      by decide +kernel⟩, by decide +kernel⟩
  have hBroken (s : Store) (text : String)
      (hContent :
        (loaderOver text).desk.disk.read s.path =
          .ok text.toUTF8)
      (hBreaks : s.BreaksOn text.toUTF8) :
      ∃ error, ∀ construct,
        s.load Others.absent onDesk construct (loaderOver text) =
          .error error (loaderOver text) := by
    rcases (corrupt_artifact_is_replaced s text.toUTF8).1
        (loaderOver text) hContent with
      ⟨-, error, -, hLoad⟩ | ⟨hNot, -⟩
    · exact ⟨error, hLoad⟩
    · exact absurd hBreaks hNot
  have hDeep : Store.quietStore.BreaksOn deepText.toUTF8 :=
    (corrupt_artifact_is_replaced Store.quietStore
      deepText.toUTF8).2.2 1000 "1" (by decide)
  have hUntold : Store.tellingStore.BreaksOn taggedText.toUTF8 := by
    refine ⟨_, hTagged, .inr (.inr ⟨rfl, ?_⟩)⟩
    rw [hShown]
    exact nofun
  have hHolds :
      ¬ Store.tellingStore.BreaksOn "[".toUTF8 := by
    rintro ⟨error, hError, hBreaks⟩
    rw [hTorn] at hError
    cases hError
    rcases hBreaks with hInfinity | hBrackets | ⟨-, hCheck⟩
    · cases hInfinity
    · cases hBrackets
    · exact hCheck hPlain
  have hNone :
      (Snapshot.ofArtifact "[".toUTF8
        Store.tellingStore.room).toOption = none := by
    rw [hTorn]
    rfl
  rcases (corrupt_artifact_is_replaced Store.tellingStore
      "[".toUTF8).1 (loaderOver "[") rfl with
    ⟨hBreaks, -⟩ | ⟨-, hRead, hBuilds⟩
  · exact absurd hBreaks hHolds
  rw [hNone] at hRead
  exact ⟨hRead, hBuilds hNone hReady hTell,
    hBroken _ _ rfl ⟨_, hInfinite, .inl rfl⟩,
    hBroken _ _ rfl hDeep, hBroken _ _ rfl hUntold⟩

end Loader

end SymbolAtlas
