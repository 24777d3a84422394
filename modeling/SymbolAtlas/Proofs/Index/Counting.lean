import SymbolAtlas.Proofs.Index.Effects
import SymbolAtlas.Proofs.Index.Flags
import SymbolAtlas.Proofs.Index.Settling
import SymbolAtlas.Proofs.Index.Tallies

/-
  How often a name is missed.

  A rebuild that finds a name and an update that finds it end
  its misses. The name that is looked up is missed once more or
  no longer, and nothing else changes how often a name is missed.
  A name that was missed too often is not looked for any more.

  Key definitions:
    * `Snapshot.misses`
    * `Index.hasFound`, `Index.Recounts`
  Key theorems:
    * `Index.recounts_rebuild`, `Index.recounts_update`
    * `Index.recounts_lookup`, `Index.misses_lookup`
    * `Index.lookup_of_limit`, `Index.unfound_of_lookup_none`
-/

------------------------------------------------------------
-- Misses
------------------------------------------------------------

namespace SymbolAtlas

namespace Snapshot

/- How often a name is missed in a row. -/
def misses (k : Snapshot) (name : String) : Int :=
  (k.missing.get? name).getD 0

variable {k : Snapshot} {name : String}

theorem misses_of_none
    (hNone : k.missing.get? name = none) :
    k.misses name = 0 := by
  unfold misses
  rw [hNone]
  rfl

/- What is known is not missed. -/
theorem IsTallied.misses_of_known
    (hTallied : k.IsTallied)
    {entry : Entry}
    (hEntry : k.symbols.get? name = some entry) :
    k.misses name = 0 :=
  misses_of_none (hTallied.disjoint name entry hEntry)

/- Misses are counted up to the limit. -/
theorem IsTallied.misses_le
    (hTallied : k.IsTallied)
    (name : String) :
    k.misses name ≤ Index.retryLimit := by
  unfold misses
  cases hMisses : k.missing.get? name with
  | none => decide
  | some count => exact (hTallied.counted name count hMisses).2

end Snapshot

namespace Index

/- A name that was missed too often is not looked for. -/
theorem lookup_of_limit
    {name : String}
    {i : Index}
    (hLimit : retryLimit ≤ i.known.misses name)
    (c : Context) :
    lookup c name i = .ok none i := by
  have hNot : ¬ MaySearch c i name :=
    fun hSearch => Int.not_lt.mpr hLimit hSearch.1
  rw [lookup_of_not_maySearch hNot, if_pos]
  exact hLimit

/-
  Between the first index and the second one the name was found:
  it is known, and everything was scanned or its file was.
-/
def hasFound (i j : Index) (name : String) : Bool :=
  match j.known.symbols.get? name with
  | none => false
  | some entry =>
      decide (i.session.walks < j.session.walks) ||
        ((j.scanned.drop i.scanned.length).map Scan.path).contains
          (Path.normal entry.file)

variable {i j k : Index} {name : String}

/- Only what is known, scanned and counted matters. -/
theorem hasFound_congr
    (hSymbol :
      k.known.symbols.get? name = j.known.symbols.get? name)
    (hWalks : k.session.walks = j.session.walks)
    (hScanned : k.scanned = j.scanned) :
    i.hasFound k name = i.hasFound j name := by
  unfold hasFound
  rw [hSymbol, hWalks, hScanned]

theorem hasFound_of_none
    (hNone : j.known.symbols.get? name = none) :
    i.hasFound j name = false := by
  unfold hasFound
  rw [hNone]

/- Without a scan nothing is found. -/
theorem hasFound_of_eq
    (hWalks : j.session.walks = i.session.walks)
    (hScanned : j.scanned = i.scanned) :
    i.hasFound j name = false := by
  unfold hasFound
  rw [hWalks, hScanned, List.drop_length]
  cases j.known.symbols.get? name <;> simp

/-
  The names that were found are missed no longer, and all others
  as before.
-/
def Recounts (i j : Index) (name : String) : Prop :=
  j.known.misses name =
    if i.hasFound j name then 0 else i.known.misses name

/- Names that are neither scanned nor counted are not found. -/
theorem recounts_of_eq
    (hMissing :
      j.known.missing.get? name = i.known.missing.get? name)
    (hWalks : j.session.walks = i.session.walks)
    (hScanned : j.scanned = i.scanned) :
    i.Recounts j name := by
  unfold Recounts Snapshot.misses
  rw [hasFound_of_eq hWalks hScanned, hMissing]
  rfl

/- What comes after does not concern the name. -/
theorem Recounts.congr
    (hRecounts : i.Recounts j name)
    (hSymbol :
      k.known.symbols.get? name = j.known.symbols.get? name)
    (hMissing :
      k.known.missing.get? name = j.known.missing.get? name)
    (hWalks : k.session.walks = j.session.walks)
    (hScanned : k.scanned = j.scanned) :
    i.Recounts k name := by
  unfold Recounts Snapshot.misses at hRecounts ⊢
  rw [hMissing, hasFound_congr hSymbol hWalks hScanned]
  exact hRecounts

end Index

end SymbolAtlas

------------------------------------------------------------
-- Rebuilds
------------------------------------------------------------

namespace SymbolAtlas

namespace Index

variable {c : Context} {i final : Index}

/- A rebuild clears exactly what is known after it. -/
theorem clears_rebuilt
    (hRebuild : rebuild c i = .ok () final) :
    Clears i.known.missing final.known.missing fun name =>
      ∃ entry, final.known.symbols.get? name = some entry := by
  rcases exists_loop_of_rebuild hRebuild with
    ⟨middle, hLoop, hKnown⟩
  have hMissing (name : String) (misses : Int) :
      final.known.missing.get? name = some misses ↔
        i.known.missing.get? name = some misses ∧
        ∀ source ∈ sourcesOf c,
          ¬ Finds c i.known source name := by
    rw [hKnown]
    exact missing_forM_takeIn hLoop name misses
  intro name
  constructor
  · rintro ⟨entry, hEntry⟩
    exact (settled_of_rebuild hRebuild).disjoint name entry hEntry
  · intro hUnknown
    apply Option.ext
    intro misses
    rw [hMissing]
    refine and_iff_left ?_
    intro source hSource hFinds
    exact hUnknown ⟨_, (symbols_rebuilt_iff hRebuild name _).mpr
      ⟨source, hSource, hFinds, rfl⟩⟩

theorem recounts_rebuild
    (hRebuild : rebuild c i = .ok () final)
    (name : String) :
    i.Recounts final name := by
  have hWalks : i.session.walks < final.session.walks := by
    rw [session_of_rebuild hRebuild]
    exact Nat.lt_succ_self _
  rcases clears_rebuilt hRebuild name with ⟨hTaken, hLeft⟩
  unfold Recounts
  cases hEntry : final.known.symbols.get? name with
  | none =>
      rw [hasFound_of_none hEntry]
      unfold Snapshot.misses
      rw [hLeft (by simp [hEntry])]
      rfl
  | some entry =>
      have hFound : i.hasFound final name = true := by
        unfold hasFound
        rw [hEntry]
        simp [hWalks]
      rw [hFound, if_pos rfl]
      exact Snapshot.misses_of_none (hTaken ⟨entry, hEntry⟩)

end Index

end SymbolAtlas

------------------------------------------------------------
-- Updates
------------------------------------------------------------

namespace SymbolAtlas

namespace Index

/- The file was scanned after the index was as at first. -/
def ScannedSince (first i : Index) (file : String) : Prop :=
  ∃ scans,
    i.scanned = first.scanned ++ scans ∧
    Path.normal file ∈ scans.map Scan.path

/-
  These files were scanned after the first index, and so was the
  file of every symbol that was not known then.
-/
structure Gathered
    (first : Index)
    (files : List String)
    (i : Index) : Prop where
  grown : ∃ scans, i.scanned = first.scanned ++ scans
  files : ∀ file ∈ files, ScannedSince first i file
  entries :
    ∀ name entry,
      i.known.symbols.get? name = some entry →
      first.known.symbols.get? name = none →
        ScannedSince first i entry.file

variable {c : Context} {first i j : Index}
  {files : List String} {file : String}

theorem ScannedSince.of_append
    {scans : List Scan}
    (hSince : ScannedSince first i file)
    (hScanned : j.scanned = i.scanned ++ scans) :
    ScannedSince first j file := by
  rcases hSince with ⟨before, hBefore, hFile⟩
  refine ⟨before ++ scans, ?_, ?_⟩
  · rw [hScanned, hBefore, List.append_assoc]
  · rw [List.map_append]
    exact List.mem_append_left _ hFile

/- More scans and fewer symbols are no matter. -/
theorem Gathered.of_append
    {scans : List Scan}
    (hGathered : Gathered first files i)
    (hScanned : j.scanned = i.scanned ++ scans)
    (hLess :
      ∀ name entry,
        j.known.symbols.get? name = some entry →
          i.known.symbols.get? name = some entry) :
    Gathered first files j := by
  rcases hGathered with ⟨⟨before, hBefore⟩, hFiles, hEntries⟩
  refine ⟨⟨before ++ scans, ?_⟩, ?_, ?_⟩
  · rw [hScanned, hBefore, List.append_assoc]
  · exact fun file hFile => (hFiles file hFile).of_append hScanned
  · exact fun name entry hEntry hNew =>
      (hEntries name entry (hLess name entry hEntry)
        hNew).of_append hScanned

/- A file that is scanned is one of those files. -/
theorem Gathered.cons
    {alone : Bool}
    (hGathered : Gathered first files i)
    (hScanned :
      j.scanned = i.scanned ++ [Scan.ofPath file alone])
    (hLess :
      ∀ name entry,
        j.known.symbols.get? name = some entry →
          i.known.symbols.get? name = some entry) :
    Gathered first (file :: files) j := by
  have hAfter := hGathered.of_append hScanned hLess
  rcases hGathered.grown with ⟨before, hBefore⟩
  refine ⟨hAfter.grown, ?_, hAfter.entries⟩
  rw [List.forall_mem_cons]
  refine ⟨⟨before ++ [Scan.ofPath file alone], ?_, ?_⟩,
    hAfter.files⟩
  · rw [hScanned, hBefore, List.append_assoc]
  · simp [Scan.ofPath]

theorem Gathered.entered
    (hGathered : Gathered first files i)
    (hFile : file ∈ files)
    (symbol : String)
    (mtime : Int) :
    Gathered first files (i.entered symbol ⟨file, mtime⟩) := by
  have hSince {other : String}
      (hOther : ScannedSince first i other) :
      ScannedSince first (i.entered symbol ⟨file, mtime⟩) other :=
    hOther
  refine ⟨hGathered.grown, hGathered.files, ?_⟩
  intro name entry hEntry hNew
  simp only [Index.entered, Keyed.get?_insert] at hEntry
  split at hEntry
  · cases hEntry
    exact hSince (hGathered.files file hFile)
  · exact hSince (hGathered.entries name entry hEntry hNew)

theorem Gathered.notedEmpty
    (hGathered : Gathered first files i)
    (file : String)
    (mtime : Int) :
    Gathered first files (i.notedEmpty file mtime) :=
  hGathered.of_append (List.append_nil _).symm
    fun _ _ hEntry => hEntry

/- What is forgotten is not known any more. -/
theorem Gathered.forgotten
    (hGathered : Gathered first files i)
    (file : String) :
    Gathered first files (i.forgotten file) := by
  refine hGathered.of_append (List.append_nil _).symm ?_
  intro name entry hEntry
  rw [Index.forgotten, Keyed.get?_filter_eq_some_iff] at hEntry
  exact hEntry.1

theorem Gathered.of_cons
    (hGathered : Gathered first (file :: files) i) :
    Gathered first files i :=
  ⟨hGathered.grown,
    fun other hOther =>
      hGathered.files other (List.mem_cons_of_mem _ hOther),
    hGathered.entries⟩

/- A file that gives symbols was scanned. -/
theorem ends_scanAgain_gathered
    (c : Context)
    (file : String) :
    Work.Ends (Gathered first files) (scanAgain c file)
      fun found i =>
        Gathered first files i ∧
        (found.isSome → Gathered first (file :: files) i) := by
  intro i found final hGathered hRun
  have hForgotten := hGathered.forgotten file
  have hNothing :
      Gathered first files (i.forgotten file) ∧
      ((none : Option (Int × List String)).isSome →
        Gathered first (file :: files) (i.forgotten file)) :=
    ⟨hForgotten, fun hSome => absurd hSome Bool.false_ne_true⟩
  rw [scanAgain_eq] at hRun
  cases hStat : c.disk.stat file with
  | error fault =>
      rw [hStat] at hRun
      cases hRun
      exact hNothing
  | ok stat =>
      rw [hStat] at hRun
      dsimp only at hRun
      split at hRun
      · cases hRun
        exact hNothing
      · cases hAlone : standsAlone c file with
        | error error =>
            rw [hAlone] at hRun
            cases hRun
        | ok alone =>
            rw [hAlone] at hRun
            dsimp only at hRun
            rw [scan_eq] at hRun
            cases hScan :
                (Scan.ofPath file alone).run c.disk c.strict with
            | error error =>
                rw [hScan] at hRun
                cases hRun
            | ok result =>
                rw [hScan] at hRun
                cases hRun
                have hScanned :
                    Gathered first (file :: files)
                      { i.forgotten file with
                        scanned :=
                          (i.forgotten file).scanned ++
                            [Scan.ofPath file alone]
                        notices :=
                          (i.forgotten file).notices ++
                            result.notices } :=
                  hForgotten.cons rfl fun _ _ hEntry => hEntry
                split
                · have hEmpty :=
                    hScanned.notedEmpty file stat.mtime
                  exact ⟨hEmpty.of_cons, fun _ => hEmpty⟩
                · exact ⟨hScanned.of_cons, fun _ => hScanned⟩

/- A symbol of a file that was scanned is entered. -/
theorem ends_reclaim_gathered
    {updateOther : String → Work Unit}
    (hUpdate :
      ∀ other,
        Work.Ends (Gathered first (file :: files))
          (updateOther other)
          fun _ => Gathered first (file :: files))
    (mtime : Int)
    (symbol : String) :
    Work.Ends (Gathered first (file :: files))
      (reclaim c updateOther file mtime symbol)
      fun _ => Gathered first (file :: files) := by
  have hEnter :
      Work.Ends (Gathered first (file :: files))
        (enter symbol ⟨file, mtime⟩)
        fun _ => Gathered first (file :: files) :=
    Work.ends_modify fun _ hGathered =>
      hGathered.entered List.mem_cons_self symbol mtime
  unfold reclaim
  refine (ends_recall symbol).bind fun previous => ?_
  cases previous with
  | none => exact hEnter
  | some previous =>
      dsimp only
      split
      on_goal 1 =>
        refine (hUpdate previous.file).bind fun _ => ?_
      -- Updated or not, the symbol is looked up once more.
      all_goals
        refine (ends_recall symbol).bind fun standing => ?_
        cases standing with
        | none => exact hEnter
        | some standing => exact Work.ends_throw _

/-
  An update gathers what it scans. The induction is on the
  updates that are left; those within this one start where it
  has scanned its own file.
-/
theorem ends_updateWithin_gathered
    (c : Context)
    (fuel : Nat)
    (files : List String)
    (file : String) :
    Work.Ends (Gathered first files) (updateWithin c fuel file)
      fun _ => Gathered first files := by
  induction fuel generalizing files file with
  | zero => exact Work.ends_pure fun _ hGathered => hGathered
  | succ fuel ih =>
      unfold updateWithin
      refine (ends_scanAgain_gathered c file).bind fun found => ?_
      cases found with
      | none => exact Work.ends_pure fun _ hState => hState.1
      | some found =>
          obtain ⟨mtime, symbols⟩ := found
          have hClaims :
              Work.Ends (Gathered first (file :: files))
                (symbols.forM
                  (reclaim c (updateWithin c fuel) file mtime))
                fun _ => Gathered first (file :: files) :=
            Work.Ends.forM fun symbol _ =>
              ends_reclaim_gathered
                (fun other => ih (file :: files) other) mtime symbol
          refine (hClaims.of_imp fun _ hState =>
            hState.2 rfl).bind fun _ => ?_
          intro i value final hGathered hRun
          have hScanned :=
            scanned_debug c (.updated file symbols.length) i
          rw [hRun, Work.stateAfter_ok] at hScanned
          apply hGathered.of_cons.of_append
            (hScanned.trans (List.append_nil _).symm)
          rw [known_of_debug hRun]
          exact fun _ _ hEntry => hEntry

/- An update clears what it has found. -/
theorem recounts_update
    {final : Index}
    (hTallied : i.known.IsTallied)
    (hUpdate : update c file i = .ok () final)
    (name : String) :
    i.Recounts final name := by
  have hStart : Gathered i [] i :=
    ⟨⟨[], (List.append_nil _).symm⟩, List.forall_mem_nil _,
      fun name entry hEntry hNew => by
        rw [hNew] at hEntry
        cases hEntry⟩
  have hGathered :=
    ends_updateWithin_gathered c _ [] file i () final hStart
      hUpdate
  have hAfter := isTallied_update (c := c) hTallied file
  rw [hUpdate, Work.stateAfter_ok] at hAfter
  rcases update_renews hUpdate with ⟨nested, -, -, -, hClears⟩
  unfold Recounts
  cases hFound : i.hasFound final name with
  | true =>
      unfold hasFound at hFound
      cases hEntry : final.known.symbols.get? name with
      | none =>
          rw [hEntry] at hFound
          cases hFound
      | some entry => exact hAfter.misses_of_known hEntry
  | false =>
      rw [if_neg Bool.false_ne_true]
      cases hEntry : final.known.symbols.get? name with
      | none =>
          unfold Snapshot.misses
          rw [(hClears name).2]
          rintro ⟨updated, -, time, hMaps⟩
          rw [hEntry] at hMaps
          cases hMaps
      | some entry =>
          -- A name that is new was scanned, so this one is not.
          have hBefore :
              i.known.symbols.get? name ≠ none := by
            intro hNew
            rcases hGathered.entries name entry hEntry hNew with
              ⟨scans, hScans, hFile⟩
            unfold hasFound at hFound
            rw [hEntry, hScans, List.drop_left] at hFound
            simp [hFile] at hFound
          rcases Option.ne_none_iff_exists'.mp hBefore with
            ⟨before, hKnown⟩
          rw [hAfter.misses_of_known hEntry,
            hTallied.misses_of_known hKnown]

end Index

end SymbolAtlas

------------------------------------------------------------
-- Look-Ups
------------------------------------------------------------

namespace SymbolAtlas

namespace Index

variable {c : Context} {symbol name : String} {misses : Int}
  {entry : Option Entry} {value : Option String}
  {i middle final : Index}

/- An answer does not concern other names. -/
theorem Recounts.answered
    (hRecounts : i.Recounts middle name)
    (hName : name ≠ symbol)
    (hAnswer : answer c symbol misses entry middle = .ok value final) :
    i.Recounts final name := by
  unfold answer at hAnswer
  split at hAnswer
  · cases hAnswer
    refine hRecounts.congr ?_ ?_ rfl rfl
    · exact (Keyed.get?_erase ..).trans (if_neg hName)
    · exact (Keyed.get?_insert ..).trans (if_neg hName)
  · cases entry with
    | none =>
        cases hAnswer
        exact hRecounts
    | some found =>
        dsimp only at hAnswer
        rw [Work.bind_of_ok (hit_eq symbol middle)] at hAnswer
        split at hAnswer
        · cases hAnswer
          refine hRecounts.congr rfl ?_ rfl rfl
          exact (Keyed.get?_erase ..).trans (if_neg hName)
        · cases hAnswer
          exact hRecounts

/- The name itself is missed once more, or not any more. -/
theorem misses_answer
    (hAuto : c.settings.autoRebuild = true)
    (hAnswer : answer c symbol misses entry middle = .ok value final) :
    final.known.misses symbol =
      if value.isSome then 0 else min (misses + 1) retryLimit := by
  unfold answer at hAnswer
  unfold Snapshot.misses
  split at hAnswer
  · cases hAnswer
    change ((middle.known.missing.insert symbol _).get? symbol).getD
      0 = _
    rw [Keyed.get?_insert, if_pos rfl]
    rfl
  · next hLive =>
    cases entry with
    | none => simp [hAuto, isLive] at hLive
    | some found =>
        dsimp only at hAnswer
        rw [Work.bind_of_ok (hit_eq symbol middle)] at hAnswer
        split at hAnswer
        · cases hAnswer
          change ((middle.known.missing.erase symbol).get?
            symbol).getD 0 = _
          rw [Keyed.get?_erase, if_pos rfl]
          rfl
        · next hNot =>
          cases hAnswer
          have hNone : middle.known.missing.get? symbol = none := by
            by_contra hSome
            exact hNot (Keyed.contains_iff.mpr
              (Option.ne_none_iff_exists'.mp hSome))
          rw [hNone]
          rfl

/-
  A look-up that succeeds answers at once, or after a rebuild or
  an update.
-/
theorem lookup_ok_cases
    (hAuto : c.settings.autoRebuild = true)
    (hTallied : i.known.IsTallied)
    (hLookup : lookup c symbol i = .ok value final) :
    retryLimit ≤ i.known.misses symbol ∧
      value = none ∧ final = i ∨
    ∃ middle entry,
      (∀ name, i.Recounts middle name) ∧
      answer c symbol (i.known.misses symbol) entry middle =
        .ok value final := by
  by_cases hLimit : retryLimit ≤ i.known.misses symbol
  · left
    rw [lookup_of_limit hLimit] at hLookup
    cases hLookup
    exact ⟨hLimit, rfl, rfl⟩
  · right
    have hSearch : MaySearch c i symbol :=
      ⟨Int.not_le.mp hLimit, hAuto⟩
    have hDirtied {middle : Index}
        (hRecounts : ∀ name, i.Recounts middle name) :
        ∀ name, i.Recounts middle.dirtied name :=
      fun name => (hRecounts name).congr rfl rfl rfl rfl
    rw [lookup_of_maySearch hSearch] at hLookup
    rcases Work.exists_of_bind_eq_ok hLookup with
      ⟨entry, middle, hUpToDate, hAnswer⟩
    refine ⟨middle, entry, ?_, hAnswer⟩
    by_cases hRescans : Rescans c i symbol
    · rw [bringUpToDate_of_rescans hRescans] at hUpToDate
      cases hRebuild : rebuild c i with
      | error error next =>
          rw [hRebuild] at hUpToDate
          cases hUpToDate
      | ok value next =>
          rw [hRebuild] at hUpToDate
          cases hUpToDate
          exact hDirtied (recounts_rebuild hRebuild)
    · by_cases hRenews : ∃ found, Renews c i symbol found
      · rcases hRenews with ⟨found, hRenews⟩
        rw [bringUpToDate_of_renews hRenews] at hUpToDate
        cases hUpdate : update c found.file i with
        | error error next =>
            rw [hUpdate] at hUpToDate
            cases hUpToDate
        | ok value next =>
            rw [hUpdate] at hUpToDate
            cases hUpToDate
            exact hDirtied (recounts_update hTallied hUpdate)
      · rw [bringUpToDate_otherwise hSearch hRescans
          fun found hFound => hRenews ⟨found, hFound⟩] at hUpToDate
        cases hUpToDate
        exact fun name => recounts_of_eq rfl rfl rfl

/- Other names are missed as before, or were found. -/
theorem recounts_lookup
    (hAuto : c.settings.autoRebuild = true)
    (hTallied : i.known.IsTallied)
    (hName : name ≠ symbol)
    (hLookup : lookup c symbol i = .ok value final) :
    i.Recounts final name := by
  rcases lookup_ok_cases hAuto hTallied hLookup with
    ⟨-, -, rfl⟩ | ⟨middle, entry, hRecounts, hAnswer⟩
  · exact recounts_of_eq rfl rfl rfl
  · exact (hRecounts name).answered hName hAnswer

/- The name itself is missed once more, or not any more. -/
theorem misses_lookup
    (hAuto : c.settings.autoRebuild = true)
    (hTallied : i.known.IsTallied)
    (hLookup : lookup c symbol i = .ok value final) :
    final.known.misses symbol =
      if value.isSome then 0
      else min (i.known.misses symbol + 1) retryLimit := by
  rcases lookup_ok_cases hAuto hTallied hLookup with
    ⟨hLimit, rfl, rfl⟩ | ⟨middle, entry, -, hAnswer⟩
  · have hMost := hTallied.misses_le symbol
    change final.known.misses symbol = min _ retryLimit
    omega
  · exact misses_answer hAuto hAnswer

/- What brings a look-up that gives nothing up to date. -/
theorem exists_unfound
    {work : EStateM.Result Error Index Unit}
    (hSearch : MaySearch c i symbol)
    (hUpToDate :
      bringUpToDate c symbol i =
        match work with
        | .error error final => .error error final
        | .ok _ final =>
            .ok (final.known.symbols.get? symbol) final.dirtied)
    (hLive :
      ∀ final entry,
        work = .ok () final →
        final.known.symbols.get? symbol = some entry →
          c.disk.isFile entry.file = true)
    (hLookup : lookup c symbol i = .ok none final) :
    ∃ middle,
      work = .ok () middle ∧
      middle.known.symbols.get? symbol = none := by
  rw [lookup_of_maySearch hSearch] at hLookup
  cases work with
  | error error middle =>
      rw [Work.bind_of_error hUpToDate] at hLookup
      cases hLookup
  | ok value middle =>
      rw [Work.bind_of_ok hUpToDate] at hLookup
      refine ⟨middle, rfl, ?_⟩
      by_contra hSome
      rcases Option.ne_none_iff_exists'.mp hSome with
        ⟨entry, hEntry⟩
      have hFile : isLive c.disk (some entry) = true :=
        hLive middle entry rfl hEntry
      unfold answer at hLookup
      rw [hEntry, hFile, Bool.not_true, Bool.and_false,
        if_neg Bool.false_ne_true] at hLookup
      dsimp only at hLookup
      rw [Work.bind_of_ok (hit_eq symbol _)] at hLookup
      cases hLookup

/-
  A look-up that gives nothing has not found the name in a
  rebuild or an update of its own, so its miss is one more.
-/
theorem unfound_of_lookup_none
    (hLookup : lookup c symbol i = .ok none final) :
    (Rescans c i symbol →
      ∃ middle,
        rebuild c i = .ok () middle ∧
        middle.known.symbols.get? symbol = none) ∧
    ∀ found,
      Renews c i symbol found →
        ∃ middle,
          update c found.file i = .ok () middle ∧
          middle.known.symbols.get? symbol = none := by
  refine ⟨fun hRescans => ?_, fun found hRenews => ?_⟩
  · exact exists_unfound hRescans.1
      (bringUpToDate_of_rescans hRescans)
      (fun _ _ hRebuild hEntry => isFile_of_rebuild hRebuild hEntry)
      hLookup
  · exact exists_unfound hRenews.1
      (bringUpToDate_of_renews hRenews)
      (fun _ _ hUpdate hEntry =>
        isFile_of_update hRenews.2.1 hUpdate hEntry)
      hLookup

end Index

end SymbolAtlas
