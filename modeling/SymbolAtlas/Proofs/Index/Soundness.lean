import SymbolAtlas.Proofs.Index.Agreement

/-
  A look-up hands out what is declared now.

  An entry is faithful if it is stale or its file declares the
  symbol. Whatever a rebuild enters is current, an update leaves
  old entries and current ones, and a look-up answers with an
  entry only after it has compared the time of its file. So an
  answer is never a stale one, and entries stay faithful even
  when the look-up fails.

  Key definitions:
    * `Index.isAlone`, `Index.Declares`
    * `Snapshot.OneTime`
    * `Index.Faithful`, `Index.IsCurrent`
    * `Index.OldOrCurrent`, `Index.RenewedEntries`
  Key theorems:
    * `Index.isCurrent_of_rebuild`
    * `Index.renewedEntries_of_update`
    * `Index.bringUpToDate_sound`
    * `Index.lookup_sound`
-/

------------------------------------------------------------
-- Declarations
------------------------------------------------------------

namespace SymbolAtlas

namespace Index

/- The path is that of a file that stands alone. -/
def isAlone (c : Context) (path : String) : Bool :=
  c.settings.files.any fun file =>
    match c.settings.resolvePath c.disk file with
    | .ok real => Path.normal real == Path.normal path
    | .error _ => false

/-
  A scan of the file reports the symbol. It adds the stem of
  the file if the file stands alone.
-/
def Declares (c : Context) (file symbol : String) : Prop :=
  ∃ result,
    (Scan.ofPath file (isAlone c file)).run c.disk c.strict =
      .ok result ∧
    symbol ∈ result.symbols

instance
    (c : Context)
    (file symbol : String) :
    Decidable (Declares c file symbol) :=
  inferInstanceAs
    (Decidable (Reports c ⟨file, 0, isAlone c file⟩ symbol))

variable {c : Context} {file symbol : String}

theorem isAlone_of_resolves
    {path : String}
    (hFile : file ∈ c.settings.files)
    (hResolves : c.settings.resolvePath c.disk file = .ok path) :
    isAlone c path = true := by
  unfold isAlone
  rw [List.any_eq_true]
  refine ⟨file, hFile, ?_⟩
  rw [hResolves]
  exact beq_self_eq_true _

/- An update takes no other file for one that stands alone. -/
theorem isAlone_of_standsAlone
    (hAlone : standsAlone c file = .ok true) :
    isAlone c file = true := by
  unfold standsAlone at hAlone
  cases hPaths :
      c.settings.files.mapM (c.settings.resolvePath c.disk) with
  | error error =>
      rw [hPaths] at hAlone
      cases hAlone
  | ok paths =>
      rw [hPaths] at hAlone
      have hMem : file ∈ paths := by
        simpa [Except.map] using hAlone
      rcases exists_of_mem_mapM hPaths hMem with
        ⟨other, hOther, hResolves⟩
      exact isAlone_of_resolves hOther hResolves

/- What any scan reports that adds no stem in vain is declared. -/
theorem declares_of_run
    {alone : Bool}
    {result : Scan.Result}
    (hRun :
      (Scan.ofPath file alone).run c.disk c.strict = .ok result)
    (hSymbol : symbol ∈ result.symbols)
    (hAlone : alone = true → isAlone c file = true) :
    Declares c file symbol := by
  rcases exists_run_of_run hRun with ⟨declared, hSymbols, hRuns⟩
  refine ⟨_, hRuns (isAlone c file), ?_⟩
  rw [hSymbols, mem_withStem] at hSymbol
  rw [mem_withStem]
  exact hSymbol.imp id fun hStem =>
    ⟨hAlone hStem.1, hStem.2⟩

/- The normal form of a path declares what the path does. -/
theorem Declares.normal
    (hDeclares : Declares c file symbol) :
    Declares c (Path.normal file) symbol := by
  unfold Declares isAlone Scan.ofPath at hDeclares ⊢
  rw [Path.normal_normal]
  exact hDeclares

end Index

end SymbolAtlas

------------------------------------------------------------
-- Faithful Entries
------------------------------------------------------------

namespace SymbolAtlas

/- All symbols of a file carry one time. -/
def Snapshot.OneTime (k : Snapshot) : Prop :=
  ∀ symbol other file mtime otherTime,
    k.symbols.get? symbol = some ⟨file, mtime⟩ →
    k.symbols.get? other = some ⟨file, otherTime⟩ →
    mtime = otherTime

namespace Index

/-
  An entry whose file is there with the recorded time leads to
  a file that declares the symbol.
-/
def Faithful (c : Context) (k : Snapshot) : Prop :=
  ∀ symbol entry,
    k.symbols.get? symbol = some entry →
    c.disk.mtime? entry.file = some entry.mtime →
      c.disk.isFile entry.file = true ∧
      Declares c entry.file symbol

instance
    (c : Context)
    (k : Snapshot) :
    Decidable (Faithful c k) :=
  decidable_of_iff
    (∀ item ∈ k.symbols.entries,
      c.disk.mtime? item.2.file = some item.2.mtime →
        c.disk.isFile item.2.file = true ∧
        Declares c item.2.file item.1) (by
    unfold Faithful
    simp only [Keyed.get?_eq_some_iff, Prod.forall])

/- The file is there with the time, and declares the symbol. -/
structure IsCurrent
    (c : Context)
    (symbol : String)
    (entry : Entry) : Prop where
  stat : c.disk.stat entry.file = .ok ⟨false, entry.mtime⟩
  declares : Declares c entry.file symbol

variable {c : Context} {symbol : String} {entry : Entry}

theorem IsCurrent.isFile
    (hCurrent : IsCurrent c symbol entry) :
    c.disk.isFile entry.file = true :=
  Disk.isFile_of_stat hCurrent.stat

/- A file with a time is one that can be asked for. -/
theorem stat_of_isFile
    {d : Disk}
    {path : String}
    {mtime : Int}
    (hFile : d.isFile path = true)
    (hTime : d.mtime? path = some mtime) :
    d.stat path = .ok ⟨false, mtime⟩ := by
  unfold Disk.isFile at hFile
  unfold Disk.mtime? at hTime
  cases hStat : d.stat path with
  | error fault =>
      rw [hStat] at hFile
      cases hFile
  | ok stat =>
      rw [hStat] at hFile hTime
      obtain ⟨isDirectory, time⟩ := stat
      cases isDirectory with
      | true => cases hFile
      | false =>
          cases hTime
          rfl

theorem Faithful.isCurrent
    {k : Snapshot}
    (hFaithful : Faithful c k)
    (hEntry : k.symbols.get? symbol = some entry)
    (hTime : c.disk.mtime? entry.file = some entry.mtime) :
    IsCurrent c symbol entry := by
  rcases hFaithful symbol entry hEntry hTime with
    ⟨hFile, hDeclares⟩
  exact ⟨stat_of_isFile hFile hTime, hDeclares⟩

/- All entries of the second snapshot are old or current. -/
def OldOrCurrent (c : Context) (k l : Snapshot) : Prop :=
  ∀ symbol entry,
    l.symbols.get? symbol = some entry →
      k.symbols.get? symbol = some entry ∨
        IsCurrent c symbol entry

/- Old entries and current ones are faithful. -/
theorem Faithful.of_oldOrCurrent
    {k l : Snapshot}
    (hFaithful : Faithful c k)
    (hEntries : OldOrCurrent c k l) :
    Faithful c l := by
  intro symbol entry hEntry hTime
  rcases hEntries symbol entry hEntry with hOld | hCurrent
  · exact hFaithful symbol entry hOld hTime
  · exact ⟨hCurrent.isFile, hCurrent.declares⟩

end Index

end SymbolAtlas

------------------------------------------------------------
-- Rebuilds
------------------------------------------------------------

namespace SymbolAtlas

namespace Index

variable {c : Context} {i : Index}

theorem isCurrent_of_reports
    {source : Source}
    {symbol : String}
    (hSource : source ∈ sourcesOf c)
    (hReports : Reports c source symbol) :
    IsCurrent c symbol (entryOf source) := by
  rcases hReports with ⟨result, hReported, hSymbol⟩
  refine ⟨Sources.stat_of_mem_ofSettings
    (Sources.firsts_subset hSource), ?_⟩
  apply declares_of_run hReported hSymbol
  intro hAlone
  rcases exists_file_of_alone hSource hAlone with
    ⟨file, hFile, hResolves⟩
  exact isAlone_of_resolves hFile hResolves

section Rebuild

variable (hOneTime : i.known.OneTime)
variable (hFaithful : Faithful c i.known)

include hOneTime hFaithful

/- What a source is found to declare, it declares now. -/
theorem isCurrent_of_found
    {source : Source}
    {result : Scan.Result}
    {symbol : String}
    (hSource : source ∈ sourcesOf c)
    (hFound :
      found c (Memory.ofSnapshot i.known) source = .ok result)
    (hSymbol : symbol ∈ result.symbols) :
    IsCurrent c symbol (entryOf source) := by
  unfold found at hFound
  cases hMemory :
      (Memory.ofSnapshot i.known).symbols? source with
  | none =>
      rw [hMemory] at hFound
      exact isCurrent_of_reports hSource
        ⟨result, hFound, hSymbol⟩
  | some symbols =>
      rw [hMemory] at hFound
      cases hFound
      rcases Memory.symbols?_eq_some hMemory with
        ⟨rfl, ⟨other, hOther⟩ | ⟨hNone, -⟩⟩
      · rcases Memory.mem_symbolsOf_iff.mp hSymbol with
          ⟨mtime, hEntry⟩
        have hTime : mtime = source.mtime :=
          hOneTime _ _ _ _ _ hEntry hOther
        rw [hTime] at hEntry
        exact hFaithful.isCurrent hEntry
          (mtime?_of_mem_sourcesOf hSource)
      · dsimp only at hSymbol
        rw [hNone] at hSymbol
        cases hSymbol

/- All entries after a rebuild are current, if it fails or not. -/
theorem isCurrent_of_rebuild
    (symbol : String)
    (entry : Entry)
    (hEntry :
      (Work.stateAfter (rebuild c i)).known.symbols.get? symbol =
        some entry) :
    IsCurrent c symbol entry := by
  let AllCurrent (j : Index) : Prop :=
    ∀ symbol entry,
      j.known.symbols.get? symbol = some entry →
        IsCurrent c symbol entry
  have hLoop :
      AllCurrent (Work.stateAfter ((sourcesOf c).forM
        (takeIn c (Memory.ofSnapshot i.known)) i.begun)) := by
    refine Work.forM_preserves AllCurrent ?_ ?_
    · intro source hSource j hCurrent
      cases hFound :
          found c (Memory.ofSnapshot i.known) source with
      | error error =>
          rw [takeIn_of_error hFound]
          exact hCurrent
      | ok result =>
          rw [takeIn_of_ok hFound]
          refine Work.forM_preserves AllCurrent ?_ hCurrent
          intro name hName l hCurrent
          cases hTaken : l.known.symbols.get? name with
          | some previous =>
              rw [claim_of_some hTaken]
              exact hCurrent
          | none =>
              rw [claim_of_none hTaken]
              intro other entry hOther
              simp only [Work.stateAfter_ok, entered,
                Keyed.get?_insert] at hOther
              split at hOther
              · next hSame =>
                  cases hOther
                  rw [hSame]
                  exact isCurrent_of_found hOneTime hFaithful
                    hSource hFound hName
              · exact hCurrent other entry hOther
    · intro name entry hNone
      cases hNone
  cases hRun :
      (sourcesOf c).forM
        (takeIn c (Memory.ofSnapshot i.known)) i.begun with
  | error error final =>
      rw [rebuild_of_error hRun] at hEntry
      rw [hRun] at hLoop
      exact hLoop symbol entry hEntry
  | ok value final =>
      rw [rebuild_of_ok hRun] at hEntry
      rw [hRun] at hLoop
      apply hLoop symbol entry
      cases hFailure :
          (Sources.ofSettings c.disk c.settings).failure with
      | some error =>
          rw [hFailure] at hEntry
          exact hEntry
      | none =>
          rw [hFailure] at hEntry
          exact hEntry

end Rebuild

end Index

end SymbolAtlas

------------------------------------------------------------
-- Updates
------------------------------------------------------------

namespace SymbolAtlas

namespace Index

variable {c : Context} {file : String} {i : Index}

/- The old entries among them are in other files. -/
def RenewedEntries
    (c : Context)
    (k l : Snapshot)
    (file : String) : Prop :=
  ∀ symbol entry,
    l.symbols.get? symbol = some entry →
      (k.symbols.get? symbol = some entry ∧ entry.file ≠ file) ∨
        IsCurrent c symbol entry

theorem RenewedEntries.oldOrCurrent
    {k l : Snapshot}
    (hRenewed : RenewedEntries c k l file) :
    OldOrCurrent c k l :=
  fun symbol entry hEntry =>
    (hRenewed symbol entry hEntry).imp And.left id

/-
  A symbol that the file declares is claimed. If another file
  has to be updated first, that one enters current symbols.
-/
theorem renewedEntries_of_reclaim
    {updateOther : String → Work Unit}
    (hOther :
      ∀ other j,
        OldOrCurrent c j.known
          (Work.stateAfter (updateOther other j)).known)
    {mtime : Int}
    {symbol : String}
    (hCurrent : IsCurrent c symbol ⟨file, mtime⟩)
    {k : Snapshot}
    {j : Index}
    (hRenewed : RenewedEntries c k j.known file) :
    RenewedEntries c k
      (Work.stateAfter
        (reclaim c updateOther file mtime symbol j)).known
      file := by
  have hRoom :
      RenewedEntries c k (madeRoom c updateOther symbol j).known
        file := by
    rcases madeRoom_cases c updateOther symbol j with
      hRoom | ⟨previous, -, -, hRoom⟩
    · rw [hRoom]
      exact hRenewed
    · rw [hRoom]
      intro name entry hEntry
      rcases hOther previous.file j name entry hEntry with
        hOld | hNow
      · exact hRenewed name entry hOld
      · exact Or.inr hNow
  rcases reclaim_cases c updateOther file mtime symbol j with
    ⟨error, hRun⟩ | ⟨-, hRun⟩
  · rw [hRun]
    exact hRoom
  · rw [hRun]
    intro name entry hEntry
    simp only [Work.stateAfter_ok, entered,
      Keyed.get?_insert] at hEntry
    split at hEntry
    · next hSame =>
        cases hEntry
        rw [hSame]
        exact Or.inr hCurrent
    · exact hRoom name entry hEntry

/- What one update less leaves behind decides on the next. -/
theorem renewedEntries_of_less
    {fuel : Nat}
    (hLess :
      ∀ file j,
        OldOrCurrent c j.known
          (Work.stateAfter (updateWithin c fuel file j)).known)
    (file : String)
    (i : Index) :
    RenewedEntries c i.known
      (Work.stateAfter (updateWithin c (fuel + 1) file i)).known
      file := by
  rcases scanAgain_outcomes c file i with
    ⟨final, hScan, hKnown⟩ |
    ⟨mtime, alone, result, hStat, hAlone, hRun, hScan⟩
  · have hFinal : RenewedEntries c i.known final.known file := by
      rw [hKnown]
      intro symbol entry hEntry
      exact Or.inl ((symbols_forgotten ..).mp hEntry)
    rcases hScan with hScan | ⟨error, hScan⟩
    · rw [updateWithin_of_none hScan]
      exact hFinal
    · rw [updateWithin_of_error hScan]
      exact hFinal
  · rw [updateWithin_of_some hScan]
    have hLoop :
        RenewedEntries c i.known
          (Work.stateAfter (result.symbols.forM
            (reclaim c (updateWithin c fuel) file mtime)
            (i.rescanned file mtime alone result))).known
          file := by
      refine Work.forM_preserves
        (fun j : Index => RenewedEntries c i.known j.known file)
        ?_ ?_
      · intro symbol hSymbol j hRenewed
        refine renewedEntries_of_reclaim hLess ?_ hRenewed
        refine ⟨hStat, declares_of_run hRun hSymbol ?_⟩
        rintro rfl
        exact isAlone_of_standsAlone hAlone
      · intro symbol entry hEntry
        exact Or.inl ((symbols_rescanned ..).mp hEntry)
    cases hClaims :
        result.symbols.forM
          (reclaim c (updateWithin c fuel) file mtime)
          (i.rescanned file mtime alone result) with
    | error error final =>
        rw [Work.bind_of_error hClaims]
        rw [hClaims] at hLoop
        exact hLoop
    | ok value final =>
        rw [Work.bind_of_ok hClaims, known_debug]
        rw [hClaims] at hLoop
        exact hLoop

/- The induction is on the updates that are left. -/
theorem oldOrCurrent_of_updateWithin
    (c : Context)
    (fuel : Nat)
    (file : String)
    (i : Index) :
    OldOrCurrent c i.known
      (Work.stateAfter (updateWithin c fuel file i)).known := by
  induction fuel generalizing file i with
  | zero => exact fun _ _ hEntry => Or.inl hEntry
  | succ fuel ih =>
      exact (renewedEntries_of_less ih file i).oldOrCurrent

/-
  After an update every entry is an old one of another file or
  a current one, whether the update fails or not.
-/
theorem renewedEntries_of_update
    (c : Context)
    (file : String)
    (i : Index) :
    RenewedEntries c i.known
      (Work.stateAfter (update c file i)).known file :=
  renewedEntries_of_less
    (oldOrCurrent_of_updateWithin c i.known.symbols.size) file i

end Index

end SymbolAtlas

------------------------------------------------------------
-- Look-Ups
------------------------------------------------------------

namespace SymbolAtlas

namespace Index

variable {c : Context} {symbol : String} {i : Index}

/-
  If the index is kept up to date, an answer is the file of a
  live entry, or else a miss that drops the symbol.
-/
theorem answer_cases
    (hAuto : c.settings.autoRebuild = true)
    (symbol : String)
    (misses : Int)
    (entry : Option Entry) :
    (isLive c.disk entry = false ∧
      ∃ final,
        answer c symbol misses entry i = .ok none final ∧
        final.known.symbols = i.known.symbols.erase symbol) ∨
    ∃ found final,
      entry = some found ∧
      c.disk.isFile found.file = true ∧
      answer c symbol misses entry i =
        .ok (some (Path.normal found.file)) final ∧
      final.known.symbols = i.known.symbols := by
  cases hLive : isLive c.disk entry with
  | false =>
      left
      refine ⟨rfl, ?_⟩
      unfold answer
      rw [hAuto, hLive]
      exact ⟨_, rfl, rfl⟩
  | true =>
      right
      cases entry with
      | none => cases hLive
      | some found =>
          unfold answer
          rw [hAuto, hLive]
          simp only [Bool.not_true, Bool.and_false,
            Bool.false_eq_true, if_false]
          rw [Work.bind_of_ok (hit_eq symbol i)]
          refine ⟨found, _, rfl, hLive, rfl, ?_⟩
          split <;> rfl

section Sound

variable (hOneTime : i.known.OneTime)
variable (hFaithful : Faithful c i.known)

include hOneTime hFaithful

/-
  Once an index is up to date its entries are old or current,
  and the one of the symbol that is looked up is current if it
  is live.
-/
theorem bringUpToDate_sound
    (hSearch : MaySearch c i symbol) :
    OldOrCurrent c i.known
      (Work.stateAfter (bringUpToDate c symbol i)).known ∧
    ∀ entry final,
      bringUpToDate c symbol i = .ok (some entry) final →
      c.disk.isFile entry.file = true →
        final.known.symbols.get? symbol = some entry ∧
        IsCurrent c symbol entry := by
  by_cases hRescans : Rescans c i symbol
  · have hCurrent := isCurrent_of_rebuild hOneTime hFaithful
    rw [bringUpToDate_of_rescans hRescans]
    cases hRebuild : rebuild c i with
    | error error final =>
        rw [hRebuild] at hCurrent
        refine ⟨fun name entry hEntry =>
          Or.inr (hCurrent name entry hEntry), ?_⟩
        intro entry final hOk
        cases hOk
    | ok value rebuilt =>
        rw [hRebuild] at hCurrent
        refine ⟨fun name entry hEntry =>
          Or.inr (hCurrent name entry hEntry), ?_⟩
        intro entry final hOk _
        simp only [EStateM.Result.ok.injEq] at hOk
        rcases hOk with ⟨hEntry, rfl⟩
        exact ⟨hEntry, hCurrent symbol entry hEntry⟩
  · by_cases hRenews : ∃ entry, Renews c i symbol entry
    · rcases hRenews with ⟨old, hRenews⟩
      have hRenewed := renewedEntries_of_update c old.file i
      rw [bringUpToDate_of_renews hRenews]
      cases hUpdate : update c old.file i with
      | error error final =>
          rw [hUpdate] at hRenewed
          refine ⟨hRenewed.oldOrCurrent, ?_⟩
          intro entry final hOk
          cases hOk
      | ok value updated =>
          rw [hUpdate] at hRenewed
          refine ⟨hRenewed.oldOrCurrent, ?_⟩
          intro entry final hOk _
          simp only [EStateM.Result.ok.injEq] at hOk
          rcases hOk with ⟨hEntry, rfl⟩
          refine ⟨hEntry, ?_⟩
          rcases hRenewed symbol entry hEntry with
            ⟨hOld, hOther⟩ | hCurrent
          · -- The old entry was in the file that was updated.
            rw [hRenews.2.1, Option.some.injEq] at hOld
            rw [hOld] at hOther
            exact absurd rfl hOther
          · exact hCurrent
    · rw [not_exists] at hRenews
      rw [bringUpToDate_otherwise hSearch hRescans hRenews]
      refine ⟨fun _ _ hEntry => Or.inl hEntry, ?_⟩
      intro entry final hOk hFile
      simp only [EStateM.Result.ok.injEq] at hOk
      rcases hOk with ⟨hEntry, rfl⟩
      refine ⟨hEntry, hFaithful.isCurrent hEntry ?_⟩
      by_contra hTime
      refine hRenews entry ⟨hSearch, hEntry, hFile, ?_⟩
      simpa [hasDrifted] using hTime

/-
  A look-up answers with a file that is there and declares the
  symbol now, and then knows it with the time it has. Entries
  stay faithful, whatever the outcome.
-/
theorem lookup_sound
    (hAuto : c.settings.autoRebuild = true)
    (symbol : String) :
    (∀ path final,
      lookup c symbol i = .ok (some path) final →
        c.disk.isFile path = true ∧
        Declares c path symbol ∧
        ∃ entry,
          final.known.symbols.get? symbol = some entry ∧
          Path.normal entry.file = path ∧
          c.disk.mtime? path = some entry.mtime) ∧
    Faithful c (Work.stateAfter (lookup c symbol i)).known := by
  by_cases hSearch : MaySearch c i symbol
  · rcases bringUpToDate_sound hOneTime hFaithful hSearch with
      ⟨hEntries, hLive⟩
    rw [lookup_of_maySearch hSearch]
    cases hUpToDate : bringUpToDate c symbol i with
    | error error final =>
        rw [hUpToDate] at hEntries
        rw [Work.bind_of_error hUpToDate]
        refine ⟨fun _ _ hOk => (by cases hOk), ?_⟩
        exact hFaithful.of_oldOrCurrent hEntries
    | ok entry middle =>
        rw [hUpToDate] at hEntries
        rw [Work.bind_of_ok hUpToDate]
        have hMiddle : Faithful c middle.known :=
          hFaithful.of_oldOrCurrent hEntries
        rcases answer_cases (i := middle) hAuto symbol
            ((i.known.missing.get? symbol).getD 0) entry with
          ⟨-, final, hAnswer, hSymbols⟩ |
          ⟨found, final, rfl, hFile, hAnswer, hSymbols⟩
        · rw [hAnswer]
          refine ⟨fun _ _ hOk => (by cases hOk), ?_⟩
          intro name entry hEntry
          rw [Work.stateAfter_ok, hSymbols,
            Keyed.get?_erase] at hEntry
          split at hEntry
          · cases hEntry
          · exact hMiddle name entry hEntry
        · rw [hAnswer]
          rcases hLive found middle hUpToDate hFile with
            ⟨hEntry, hCurrent⟩
          refine ⟨?_, ?_⟩
          · intro path last hOk
            cases hOk
            have hStat := Disk.stat_normal hCurrent.stat
            refine ⟨?_, hCurrent.declares.normal, found, ?_, rfl,
              ?_⟩
            · exact Disk.isFile_of_stat hStat
            · rw [hSymbols]
              exact hEntry
            · unfold Disk.mtime?
              rw [hStat]
              rfl
          · intro name entry hEntry
            rw [Work.stateAfter_ok, hSymbols] at hEntry
            exact hMiddle name entry hEntry
  · rw [lookup_of_not_maySearch hSearch, if_pos ?_]
    · exact ⟨fun _ _ hOk => (by cases hOk), hFaithful⟩
    · by_contra hFew
      exact hSearch ⟨by omega, hAuto⟩

end Sound

/- A file that declares one more symbol than it did. -/
def grownFile : Context where
  disk :=
    { nodes := [
        (["w"], .newDirectory),
        (["w", "a.php"],
          .file "<?php class A {} class B {}".toUTF8 7)] }
  settings := { projectDir := "/w", roots := ["a.php"] }
  strict := true

/- What was known of it before. -/
def beforeItGrew : Index where
  known := { symbols := .ofList [("A", ⟨"/w/a.php", 5⟩)] }

theorem grown_lookup :
    beforeItGrew.known.IsConsistent ∧
    Faithful grownFile beforeItGrew.known ∧
    (match lookup grownFile "A" beforeItGrew with
      | .ok value _ => value
      | .error _ _ => none) = some "/w/a.php" := by
  decide +kernel

theorem lookup_sound_when_grown :
    beforeItGrew.known.OneTime ∧
    Faithful grownFile beforeItGrew.known ∧
    ∃ final,
      lookup grownFile "A" beforeItGrew =
        .ok (some "/w/a.php") final ∧
      grownFile.disk.isFile "/w/a.php" = true ∧
      Declares grownFile "/w/a.php" "A" ∧
      (∃ entry,
        final.known.symbols.get? "A" = some entry ∧
        Path.normal entry.file = "/w/a.php" ∧
        grownFile.disk.mtime? "/w/a.php" = some entry.mtime) ∧
      Faithful grownFile final.known := by
  rcases grown_lookup with ⟨hConsistent, hFaithful, hFound⟩
  refine ⟨hConsistent.oneTime, hFaithful, ?_⟩
  have hSound :=
    lookup_sound hConsistent.oneTime hFaithful rfl "A"
  cases hLookup : lookup grownFile "A" beforeItGrew with
  | error error final =>
      rw [hLookup] at hFound
      cases hFound
  | ok value final =>
      rw [hLookup] at hFound hSound
      dsimp only at hFound
      subst hFound
      rcases hSound.1 "/w/a.php" final rfl with
        ⟨hFile, hDeclares, hEntry⟩
      exact ⟨final, rfl, hFile, hDeclares, hEntry, hSound.2⟩

end Index

end SymbolAtlas
