import Mathlib.Logic.Relation
import SymbolAtlas.Proofs.Index.Incremental
import SymbolAtlas.Proofs.Index.Soundness

/-
  Which files an update reaches.

  An update goes on to changed files that are in the way, and to
  no others. If the sources are in order and every recorded file
  that exists is one of them, the update succeeds, and the files
  that it reaches are known as a rebuild would know them.

  Key definitions:
    * `Index.Displaces`, `Index.LeadsTo`
    * `Index.TracksSources`
    * `Index.Partway`, `Index.Refreshed`
    * `Index.driftedCount`, `Index.Updated`
  Key theorems:
    * `Index.driftedCount_forgotten_lt`
    * `Index.reclaim_reaches`
    * `Index.updateWithin_reaches`
-/

------------------------------------------------------------
-- Chains of Files
------------------------------------------------------------

namespace SymbolAtlas

namespace Index

/-
  The first file is a source that reports a symbol which the
  snapshot has in the second file, and that entry has drifted.
-/
def Displaces
    (c : Context)
    (k : Snapshot)
    (file other : String) : Prop :=
  ∃ source ∈ sourcesOf c,
    source.path = file ∧
    ∃ symbol entry,
      Reports c source symbol ∧
      k.symbols.get? symbol = some entry ∧
      hasDrifted c.disk entry = true ∧
      entry.file = other

/- An update of the first file comes to the second one. -/
def LeadsTo (c : Context) (k : Snapshot) :
    String → String → Prop :=
  Relation.ReflTransGen (Displaces c k)

/-
  Whatever is recorded with a symbol and still exists is a
  source, and one that updates and rebuilds scan alike.
-/
def TracksSources (c : Context) (k : Snapshot) : Prop :=
  ∀ symbol entry,
    k.symbols.get? symbol = some entry →
    c.disk.exists? entry.file = true →
      ∃ source ∈ sourcesOf c,
        source.path = entry.file ∧ UpdatesAlike c source

instance
    (c : Context)
    (k : Snapshot) :
    Decidable (TracksSources c k) :=
  decidable_of_iff
    (∀ item ∈ k.symbols.entries,
      c.disk.exists? item.2.file = true →
        ∃ source ∈ sourcesOf c,
          source.path = item.2.file ∧ UpdatesAlike c source) (by
    unfold TracksSources
    simp only [Keyed.get?_eq_some_iff, Prod.forall])

/- The entries in the file are those that a rebuild gives it. -/
def Refreshed (c : Context) (k : Snapshot) (file : String) :
    Prop :=
  ∀ symbol time,
    k.symbols.get? symbol = some ⟨file, time⟩ ↔
      ∃ source ∈ sourcesOf c,
        source.path = file ∧ source.mtime = time ∧
        Reports c source symbol

/-
  Every entry is one of the snapshot that an update has started
  from, or one of a rebuild in a file that the update reaches.
-/
def Partway
    (c : Context)
    (k : Snapshot)
    (start : String)
    (l : Snapshot) : Prop :=
  ∀ symbol entry,
    l.symbols.get? symbol = some entry →
      k.symbols.get? symbol = some entry ∨
      ∃ source ∈ sourcesOf c,
        Reports c source symbol ∧
        entry = entryOf source ∧
        LeadsTo c k start source.path

variable {c : Context} {k l m : Snapshot} {file : String}

theorem Refreshed.of_sameFile
    (hRefreshed : Refreshed c l file)
    (hSame : l.SameFile m file) :
    Refreshed c m file :=
  fun symbol time =>
    (hSame.entries symbol time).symm.trans
      (hRefreshed symbol time)

/- An entry of a source has not drifted. -/
theorem hasDrifted_entryOf
    {source : Source}
    (hSource : source ∈ sourcesOf c) :
    hasDrifted c.disk (entryOf source) = false := by
  unfold hasDrifted entryOf
  dsimp only
  rw [mtime?_of_mem_sourcesOf hSource]
  simp

/- A drifted entry is not among those that a rebuild gives. -/
theorem Refreshed.not_hasDrifted
    {symbol : String}
    {entry : Entry}
    (hRefreshed : Refreshed c k entry.file)
    (hEntry : k.symbols.get? symbol = some entry) :
    hasDrifted c.disk entry = false := by
  obtain ⟨file, time⟩ := entry
  rcases (hRefreshed symbol time).mp hEntry with
    ⟨source, hSource, rfl, rfl, -⟩
  exact hasDrifted_entryOf hSource

section Entries

variable {start symbol : String} {entry : Entry}
variable (hPartway : Partway c k start l)
variable (hEntry : l.symbols.get? symbol = some entry)

include hPartway hEntry

/- Only entries from the start have drifted. -/
theorem Partway.old_of_hasDrifted
    (hDrifted : hasDrifted c.disk entry = true) :
    k.symbols.get? symbol = some entry := by
  rcases hPartway symbol entry hEntry with
    hOld | ⟨source, hSource, -, rfl, -⟩
  · exact hOld
  · rw [hasDrifted_entryOf hSource] at hDrifted
    cases hDrifted

/- An entry that has not drifted is reported by its source. -/
theorem Partway.reports_of_not_hasDrifted
    (hComplete : IsComplete c k)
    (hTracks : TracksSources c k)
    (hUndrifted : hasDrifted c.disk entry = false) :
    ∃ source ∈ sourcesOf c,
      source.path = entry.file ∧ Reports c source symbol := by
  rcases hPartway symbol entry hEntry with
    hOld | ⟨source, hSource, hReports, rfl, -⟩
  · have hTime :
        c.disk.mtime? entry.file = some entry.mtime := by
      simpa [hasDrifted] using hUndrifted
    have hExists : c.disk.exists? entry.file = true := by
      unfold Disk.mtime? at hTime
      unfold Disk.exists?
      cases hStat : (c.disk.stat entry.file).toOption with
      | none =>
          rw [hStat] at hTime
          cases hTime
      | some stat => rfl
    rcases hTracks symbol entry hOld hExists with
      ⟨source, hSource, hPath, -⟩
    refine ⟨source, hSource, hPath, ?_⟩
    obtain ⟨file, mtime⟩ := entry
    dsimp only at hPath hTime
    subst hPath
    rw [mtime?_of_mem_sourcesOf hSource,
      Option.some.injEq] at hTime
    subst hTime
    rcases hComplete source hSource (Or.inr ⟨symbol, hOld⟩) with
      ⟨result, hReported, hMaps⟩
    exact ⟨result, hReported,
      (hMaps symbol).mp ⟨source.mtime, hOld⟩⟩
  · exact ⟨source, hSource, rfl, hReports⟩

end Entries

end Index

end SymbolAtlas

------------------------------------------------------------
-- Drifted Entries
------------------------------------------------------------

namespace SymbolAtlas

namespace Index

/- So many entries of a snapshot have drifted. -/
def driftedCount (d : Disk) (k : Snapshot) : Nat :=
  k.symbols.entries.countP fun item => hasDrifted d item.2

theorem driftedCount_le_size
    (d : Disk)
    (k : Snapshot) :
    driftedCount d k ≤ k.symbols.size :=
  List.countP_le_length

/- A value that fails a test adds nothing to those that pass. -/
theorem countP_insertEntry_le
    {α : Type}
    {p : String × α → Bool}
    {key : String}
    {value : α}
    (hFails : p (key, value) = false)
    (entries : List (String × α)) :
    (Keyed.insertEntry key value entries).countP p ≤
      entries.countP p := by
  induction entries with
  | nil => simp [Keyed.insertEntry, hFails]
  | cons first rest ih =>
      obtain ⟨other, old⟩ := first
      unfold Keyed.insertEntry
      split
      · rw [List.countP_cons_of_neg (by simp [hFails]),
          List.countP_cons]
        exact Nat.le_add_right _ _
      · rw [List.countP_cons, List.countP_cons]
        exact Nat.add_le_add_right ih _

theorem driftedCount_entered_le
    {d : Disk}
    {entry : Entry}
    (hUndrifted : hasDrifted d entry = false)
    (i : Index)
    (symbol : String) :
    driftedCount d (i.entered symbol entry).known ≤
      driftedCount d i.known :=
  countP_insertEntry_le hUndrifted i.known.symbols.entries

theorem driftedCount_forgotten_le
    (d : Disk)
    (i : Index)
    (file : String) :
    driftedCount d (i.forgotten file).known ≤
      driftedCount d i.known :=
  List.filter_sublist.countP_le

theorem driftedCount_rescanned
    (d : Disk)
    (i : Index)
    (file : String)
    (mtime : Int)
    (alone : Bool)
    (result : Scan.Result) :
    driftedCount d (i.rescanned file mtime alone result).known =
      driftedCount d (i.forgotten file).known := by
  unfold rescanned
  dsimp only
  split <;> rfl

/- A file with a drifted entry takes it along when forgotten. -/
theorem driftedCount_forgotten_lt
    {d : Disk}
    {i : Index}
    {symbol : String}
    {entry : Entry}
    (hEntry : i.known.symbols.get? symbol = some entry)
    (hDrifted : hasDrifted d entry = true) :
    driftedCount d (i.forgotten entry.file).known <
      driftedCount d i.known := by
  rcases List.append_of_mem (Keyed.get?_eq_some_iff.mp hEntry)
    with ⟨before, after, hSplit⟩
  let p (item : String × Entry) : Bool := hasDrifted d item.2
  let kept (item : String × Entry) : Bool :=
    item.2.file != entry.file
  have hBefore :
      (before.filter kept).countP p ≤ before.countP p :=
    List.filter_sublist.countP_le
  have hAfter :
      (after.filter kept).countP p ≤ after.countP p :=
    List.filter_sublist.countP_le
  have hDropped : p (symbol, entry) = true := hDrifted
  change (i.known.symbols.entries.filter kept).countP p <
    i.known.symbols.entries.countP p
  rw [hSplit, List.filter_append,
    List.filter_cons_of_neg (by simp [kept]), List.countP_append,
    List.countP_append, List.countP_cons_of_pos hDropped]
  omega

end Index

end SymbolAtlas

------------------------------------------------------------
-- Updates That Reach Files
------------------------------------------------------------

namespace SymbolAtlas

namespace Index

/- The file is gone, or a source that is scanned alike. -/
def Updatable (c : Context) (file : String) : Prop :=
  c.disk.exists? file = true →
    ∃ source ∈ sourcesOf c,
      source.path = file ∧ UpdatesAlike c source

/-
  What an update of the file is to leave behind: entries that
  it had or has reached, no more drifted ones than before, and
  every file as it was or as a rebuild has it.
-/
structure Updated
    (c : Context)
    (k : Snapshot)
    (start file : String)
    (i final : Index) : Prop where
  partway : Partway c k start final.known
  count :
    driftedCount c.disk final.known ≤
      driftedCount c.disk (i.forgotten file).known
  file : Refreshed c final.known file
  others :
    ∀ other,
      i.known.SameFile final.known other ∨
        Refreshed c final.known other

/- A symbol is entered once a drifted entry is out of the way. -/
theorem reclaim_of_update
    {c : Context}
    {updateOther : String → Work Unit}
    {file : String}
    {mtime : Int}
    {symbol : String}
    {previous : Entry}
    {i next : Index}
    (hSymbol : i.known.symbols.get? symbol = some previous)
    (hDrifted : hasDrifted c.disk previous = true)
    (hUpdate : updateOther previous.file i = .ok () next)
    (hFree : next.known.symbols.get? symbol = none) :
    reclaim c updateOther file mtime symbol i =
      .ok () (next.entered symbol ⟨file, mtime⟩) := by
  have hEntry : entry? symbol i = .ok (some previous) i := by
    rw [← hSymbol]
    rfl
  have hNone : entry? symbol next = .ok none next := by
    rw [← hFree]
    rfl
  unfold reclaim
  rw [Work.bind_of_ok hEntry]
  simp only [hDrifted, if_true]
  rw [Work.bind_of_ok hUpdate, Work.bind_of_ok hNone]
  rfl

section Within

variable {c : Context} {k : Snapshot} {start : String}
variable (hClean : IsClean c)
variable (hComplete : IsComplete c k)
variable (hTracks : TracksSources c k)
variable {fuel : Nat}

/- With fewer updates left, every file can be updated. -/
variable
  (hLess :
    ∀ file i,
      Partway c k start i.known →
      LeadsTo c k start file →
      Updatable c file →
      driftedCount c.disk (i.forgotten file).known < fuel →
        ∃ final,
          updateWithin c fuel file i = .ok () final ∧
          Updated c k start file i final)
variable {source : Source}
variable (hSource : source ∈ sourcesOf c)
variable (hReached : LeadsTo c k start source.path)

include hClean hComplete hTracks hLess hSource hReached

/-
  A symbol that a source reports can be claimed for it. Room is
  made first if a drifted entry is in the way; no other entry
  can be, since no other source reports the symbol.
-/
theorem reclaim_reaches
    {symbol : String}
    (hReports : Reports c source symbol)
    {before : List String}
    (hNew : symbol ∉ before)
    {empty : Option Int}
    {i : Index}
    (hHas : i.known.Has source.path source.mtime before empty)
    (hPartway : Partway c k start i.known)
    (hCount : driftedCount c.disk i.known ≤ fuel) :
    ∃ next : Index,
      reclaim c (updateWithin c fuel) source.path source.mtime
        symbol i =
          .ok () (next.entered symbol (entryOf source)) ∧
      next.known.symbols.get? symbol = none ∧
      next.known.Has source.path source.mtime before empty ∧
      Partway c k start next.known ∧
      driftedCount c.disk next.known ≤
        driftedCount c.disk i.known ∧
      ∀ other,
        i.known.SameFile next.known other ∨
          Refreshed c next.known other := by
  have hStat :=
    Sources.stat_of_mem_ofSettings (Sources.firsts_subset hSource)
  cases hSymbol : i.known.symbols.get? symbol with
  | none =>
      exact ⟨i, reclaim_of_none hSymbol, hSymbol, hHas, hPartway,
        le_rfl, fun _ => Or.inl (Snapshot.SameFile.refl _ _)⟩
  | some previous =>
      cases hDrifted : hasDrifted c.disk previous with
      | false =>
          rcases hPartway.reports_of_not_hasDrifted hSymbol
              hComplete hTracks hDrifted with
            ⟨other, hOther, hPath, hReportsToo⟩
          have hSame :=
            hClean.eq_of_reports hSource hOther hReports
              hReportsToo
          obtain ⟨file, time⟩ := previous
          dsimp only at hPath
          rw [← hPath, ← hSame] at hSymbol
          exact absurd
            ((hHas.entries symbol time).mp hSymbol).1 hNew
      | true =>
          have hOld := hPartway.old_of_hasDrifted hSymbol hDrifted
          have hUndrifted := Undrifted.of_has hStat hHas
          have hNe :=
            hUndrifted.ne_of_hasDrifted hSymbol hDrifted
          have hDrop := driftedCount_forgotten_lt hSymbol hDrifted
          rcases hLess previous.file i hPartway
              (hReached.tail ⟨source, hSource, rfl, symbol,
                previous, hReports, hOld, hDrifted, rfl⟩)
              (hTracks symbol previous hOld) (by omega) with
            ⟨next, hUpdate, hUpdated⟩
          have hKept :
              i.known.SameFile next.known source.path := by
            rw [← Work.stateAfter_ok () next, ← hUpdate]
            exact sameFile_updateWithin hNe hUndrifted
          have hNext := hHas.of_sameFile hKept
          have hFree :
              next.known.symbols.get? symbol = none := by
            rw [Option.eq_none_iff_forall_ne_some]
            intro entry hEntry
            rcases hUpdated.partway symbol entry hEntry with
              hStill | ⟨other, hOther, hReportsToo, rfl, -⟩
            · -- The update has dropped the drifted entry.
              rw [hOld, Option.some.injEq] at hStill
              subst hStill
              rw [hUpdated.file.not_hasDrifted hEntry] at hDrifted
              cases hDrifted
            · have hSame :=
                hClean.eq_of_reports hSource hOther hReports
                  hReportsToo
              subst hSame
              exact hNew
                ((hNext.entries symbol source.mtime).mp hEntry).1
          refine ⟨next,
            reclaim_of_update hSymbol hDrifted hUpdate hFree,
            hFree, hNext, hUpdated.partway, ?_, hUpdated.others⟩
          have hCountNext := hUpdated.count
          omega

/-
  All symbols that a source reports can be claimed for it. The
  induction is on those that are left.
-/
theorem forM_reclaim_reaches
    {symbols before : List String}
    (hReports : ∀ symbol ∈ symbols, Reports c source symbol)
    (hNodup : (before ++ symbols).Nodup)
    {empty : Option Int}
    {i : Index}
    (hHas : i.known.Has source.path source.mtime before empty)
    (hPartway : Partway c k start i.known)
    (hCount : driftedCount c.disk i.known ≤ fuel) :
    ∃ final,
      symbols.forM
        (reclaim c (updateWithin c fuel) source.path
          source.mtime) i = .ok () final ∧
      final.known.Has source.path source.mtime
        (before ++ symbols) empty ∧
      Partway c k start final.known ∧
      driftedCount c.disk final.known ≤
        driftedCount c.disk i.known ∧
      ∀ other, other ≠ source.path →
        i.known.SameFile final.known other ∨
          Refreshed c final.known other := by
  induction symbols generalizing before i with
  | nil =>
      rw [List.append_nil]
      exact ⟨i, rfl, hHas, hPartway, le_rfl,
        fun _ _ => Or.inl (Snapshot.SameFile.refl _ _)⟩
  | cons symbol rest ih =>
      rw [List.forall_mem_cons] at hReports
      have hNew : symbol ∉ before := by
        intro hMem
        exact (List.nodup_append.mp hNodup).2.2 symbol hMem symbol
          List.mem_cons_self rfl
      rcases reclaim_reaches hClean hComplete hTracks hLess
          hSource hReached hReports.1 hNew hHas hPartway
          hCount with
        ⟨next, hClaim, hFree, hNext, hNextPartway, hNextCount,
          hNextOthers⟩
      have hEntered :
          Partway c k start
            (next.entered symbol (entryOf source)).known := by
        intro name entry hEntry
        simp only [entered, Keyed.get?_insert] at hEntry
        split at hEntry
        · next hName =>
            cases hEntry
            rw [hName]
            exact Or.inr
              ⟨source, hSource, hReports.1, rfl, hReached⟩
        · exact hNextPartway name entry hEntry
      have hEnteredCount :
          driftedCount c.disk
              (next.entered symbol (entryOf source)).known ≤
            driftedCount c.disk i.known :=
        (driftedCount_entered_le (hasDrifted_entryOf hSource) next
          symbol).trans hNextCount
      rw [Work.forM_cons_of_ok hClaim]
      rcases ih hReports.2 (by simpa using hNodup)
          (has_entered hNext) hEntered
          (hEnteredCount.trans hCount) with
        ⟨final, hLoop, hFinal, hFinalPartway, hFinalCount,
          hFinalOthers⟩
      refine ⟨final, hLoop, by simpa using hFinal, hFinalPartway,
        hFinalCount.trans hEnteredCount, ?_⟩
      intro other hOther
      have hKept :
          next.known.SameFile
            (next.entered symbol (entryOf source)).known other :=
        sameFile_entered hFree hOther
      rcases hFinalOthers other hOther with hSame | hRefreshed
      · have hSame := hKept.trans hSame
        rcases hNextOthers other with hFirst | hRefreshed
        · exact Or.inl (hFirst.trans hSame)
        · exact Or.inr (hRefreshed.of_sameFile hSame)
      · exact Or.inr hRefreshed

/- An update gives a source the entries that a rebuild does. -/
theorem updated_of_source
    (hUpdates : UpdatesAlike c source)
    {i : Index}
    (hPartway : Partway c k start i.known)
    (hCount :
      driftedCount c.disk (i.forgotten source.path).known ≤
        fuel) :
    ∃ final,
      updateWithin c (fuel + 1) source.path i = .ok () final ∧
      Updated c k start source.path i final := by
  have hStat :=
    Sources.stat_of_mem_ofSettings (Sources.firsts_subset hSource)
  rcases standsAlone_of_mem_sourcesOf hClean.resolve hSource with
    ⟨alone, hAlone, hSourceAlone⟩
  rcases hClean.scanned source hSource with ⟨result, hReported⟩
  have hRun :=
    run_of_agrees hReported hAlone hUpdates.agrees hSourceAlone
  have hReports :
      ∀ symbol,
        Reports c source symbol ↔ symbol ∈ result.symbols := by
    intro symbol
    unfold Reports
    simp [hReported]
  let next := i.rescanned source.path source.mtime alone result
  have hNextPartway : Partway c k start next.known := by
    intro symbol entry hEntry
    exact hPartway symbol entry
      ((symbols_rescanned ..).mp hEntry).1
  have hNextCount :
      driftedCount c.disk next.known =
        driftedCount c.disk (i.forgotten source.path).known :=
    driftedCount_rescanned ..
  rcases forM_reclaim_reaches hClean hComplete hTracks hLess
      hSource hReached
      (fun symbol hSymbol => (hReports symbol).mpr hSymbol)
      (List.nil_append _ ▸ Scan.nodup_run hRun)
      (has_rescanned i source.path source.mtime alone result)
      hNextPartway (hNextCount.trans_le hCount) with
    ⟨middle, hLoop, hHas, hMiddlePartway, hMiddleCount,
      hOthers⟩
  rw [List.nil_append] at hHas
  rcases (debug_isOk_iff (i := middle)).mpr
      (fun hDebug => hUpdates.shown hDebug result hReported) with
    ⟨final, hTold⟩
  have hKnown := known_of_debug hTold
  have hRefreshed : Refreshed c final.known source.path := by
    intro symbol time
    rw [hKnown, hHas.entries, ← hReports]
    constructor
    · rintro ⟨hReports, rfl⟩
      exact ⟨source, hSource, rfl, rfl, hReports⟩
    · rintro ⟨other, hOther, hPath, rfl, hOtherReports⟩
      have hSame := Sources.eq_of_mem_firsts hOther hSource hPath
      rw [hSame] at hOtherReports
      exact ⟨hOtherReports, congrArg Source.mtime hSame⟩
  refine ⟨final, ?_, ?_, ?_, hRefreshed, ?_⟩
  · rw [updateWithin_of_some
      (scanAgain_of_run hStat hAlone hRun i),
      Work.bind_of_ok hLoop]
    exact hTold
  · rw [hKnown]
    exact hMiddlePartway
  · rw [hKnown]
    exact hMiddleCount.trans_eq hNextCount
  · intro other
    by_cases hOther : other = source.path
    · rw [hOther]
      exact Or.inr hRefreshed
    · rw [hKnown]
      refine (hOthers other hOther).imp_left ?_
      exact (sameFile_rescanned i source.path source.mtime alone
        result hOther).trans

end Within

/-
  With as many updates left as there are drifted entries, and
  one more, every file that can be updated is. The induction is
  on the updates that are left: each one takes a drifted entry
  away before it comes to the next.
-/
theorem updateWithin_reaches
    {c : Context}
    {k : Snapshot}
    {start : String}
    (hClean : IsClean c)
    (hComplete : IsComplete c k)
    (hTracks : TracksSources c k)
    (fuel : Nat)
    (file : String)
    (i : Index)
    (hPartway : Partway c k start i.known)
    (hReached : LeadsTo c k start file)
    (hUpdatable : Updatable c file)
    (hCount :
      driftedCount c.disk (i.forgotten file).known < fuel) :
    ∃ final,
      updateWithin c fuel file i = .ok () final ∧
      Updated c k start file i final := by
  induction fuel generalizing file i with
  | zero => omega
  | succ fuel ih =>
      cases hExists : c.disk.exists? file with
      | true =>
          rcases hUpdatable hExists with
            ⟨source, hSource, rfl, hUpdates⟩
          exact updated_of_source hClean hComplete hTracks ih
            hSource hReached hUpdates hPartway (by omega)
      | false =>
          have hScan :
              scanAgain c file i = .ok none (i.forgotten file) := by
            rw [scanAgain_eq]
            unfold Disk.exists? at hExists
            cases hStat : c.disk.stat file with
            | error fault => rfl
            | ok stat =>
                rw [hStat] at hExists
                cases hExists
          have hRefreshed :
              Refreshed c (i.forgotten file).known file := by
            intro symbol time
            refine iff_of_false ?_ ?_
            · intro hEntry
              exact ((symbols_forgotten ..).mp hEntry).2 rfl
            · rintro ⟨source, hSource, rfl, -⟩
              have hStat := Sources.stat_of_mem_ofSettings
                (Sources.firsts_subset hSource)
              unfold Disk.exists? at hExists
              rw [hStat] at hExists
              cases hExists
          refine ⟨_, updateWithin_of_none hScan, ?_, le_rfl,
            hRefreshed, ?_⟩
          · intro symbol entry hEntry
            exact hPartway symbol entry
              ((symbols_forgotten ..).mp hEntry).1
          · intro other
            by_cases hOther : other = file
            · rw [hOther]
              exact Or.inr hRefreshed
            · exact Or.inl (sameFile_forgotten hOther)

end Index

end SymbolAtlas
