import SymbolAtlas.Proofs.Index.Calls
import SymbolAtlas.Proofs.Path.Normal

/-
  When files are known completely.

  An index is asked turn by turn, and the disk may be another
  one at every turn. A file is known completely if the symbols
  that are in it are those that a scan reports for its content
  at the time that is recorded for it. All files are, until a
  call leaves off between two symbols of a file; from then on
  the time of that file tells that nothing is to be scanned.

  Key definitions:
    * `Index.Turn`, `Index.afterTurns`
    * `Index.TimesTell`, `Index.Reported`
    * `Snapshot.CompleteAt`, `Snapshot.Lacks`
    * `Index.Tears`
  Key theorems:
    * `Snapshot.completeAt_or_lacks`
    * `Index.complete_after_call`
    * `Index.complete_iff_never_torn`
-/

------------------------------------------------------------
-- Turns
------------------------------------------------------------

namespace SymbolAtlas

namespace Index

/- A call, the disk it meets and the session it is made in. -/
structure Turn where
  disk : Disk
  session : Session
  call : Call

namespace Turn

def context (settings : Settings) (strict : Bool) (t : Turn) :
    Context :=
  ⟨t.disk, settings, strict⟩

/- The index as it is when the call is made. -/
def start (t : Turn) (i : Index) : Index :=
  { i with session := t.session }

/- The index after the call, whatever its outcome. -/
def after
    (settings : Settings)
    (strict : Bool)
    (i : Index)
    (t : Turn) : Index :=
  t.call.after (t.context settings strict) (t.start i)

end Turn

/- The index after turns. -/
def afterTurns
    (settings : Settings)
    (strict : Bool)
    (i : Index)
    (turns : List Turn) : Index :=
  turns.foldl (Turn.after settings strict) i

end Index

end SymbolAtlas

------------------------------------------------------------
-- Content at a Time
------------------------------------------------------------

namespace SymbolAtlas

namespace Index

/- No file has two contents at one time. -/
def TimesTell (disks : List Disk) : Prop :=
  ∀ d ∈ disks, ∀ e ∈ disks, ∀ path mtime,
    d.stat path = .ok ⟨false, mtime⟩ →
    e.stat path = .ok ⟨false, mtime⟩ →
    d.read path = e.read path

/-
  The file was there with the time, and a scan of what it was
  then reports the symbols.
-/
structure Reported
    (strict : Bool)
    (disks : List Disk)
    (file : String)
    (mtime : Int)
    (alone : Bool)
    (symbols : List String) : Prop where
  seen : ∃ d ∈ disks, d.stat file = .ok ⟨false, mtime⟩
  scans :
    ∀ d ∈ disks, d.stat file = .ok ⟨false, mtime⟩ →
      ∃ notices,
        (Scan.ofPath file alone).run d strict =
          .ok ⟨symbols, notices⟩

variable {strict : Bool} {disks : List Disk}
variable {file : String} {mtime : Int} {alone : Bool}

/- All that a scan needs of a disk is the content of the file. -/
theorem run_eq_of_read_eq
    {d e : Disk}
    {s : Scan}
    (hRead : d.read s.path = e.read s.path) :
    s.run d strict = s.run e strict := by
  unfold Scan.run Scan.read
  rw [hRead]

/- One scan tells what all scans at that time report. -/
theorem reported_of_run
    (hTell : TimesTell disks)
    {d : Disk}
    (hDisk : d ∈ disks)
    (hStat : d.stat file = .ok ⟨false, mtime⟩)
    {result : Scan.Result}
    (hRun : (Scan.ofPath file alone).run d strict = .ok result) :
    Reported strict disks file mtime alone result.symbols := by
  refine ⟨⟨d, hDisk, hStat⟩, ?_⟩
  intro e hOther hSameTime
  have hRead :
      e.read (Path.normal file) = d.read (Path.normal file) :=
    hTell e hOther d hDisk _ _ (Disk.stat_normal hSameTime)
      (Disk.stat_normal hStat)
  refine ⟨result.notices, ?_⟩
  have hSame :
      (Scan.ofPath file alone).run e strict =
        (Scan.ofPath file alone).run d strict :=
    run_eq_of_read_eq hRead
  rw [hSame, hRun]

theorem Reported.eq
    {symbols others : List String}
    (hSymbols : Reported strict disks file mtime alone symbols)
    (hOthers : Reported strict disks file mtime alone others) :
    symbols = others := by
  rcases hSymbols.seen with ⟨d, hDisk, hStat⟩
  rcases hSymbols.scans d hDisk hStat with ⟨_, hRun⟩
  rcases hOthers.scans d hDisk hStat with ⟨_, hOther⟩
  rw [hRun] at hOther
  cases hOther
  rfl

/-
  A scan reports what the content declares. One of a file that
  stands alone adds the stem of its name.
-/
theorem run_eq_withStem
    (file : String)
    (alone : Bool)
    (d : Disk)
    (strict : Bool) :
    (Scan.ofPath file alone).run d strict =
      ((Scan.ofPath file false).run d strict).map fun result =>
        { result with
          symbols :=
            (Scan.ofPath file alone).withStem result.symbols } := by
  have hRead :
      (Scan.ofPath file alone).read d =
        (Scan.ofPath file false).read d := by
    unfold Scan.read Scan.ofPath
    dsimp only
  unfold Scan.run
  rw [hRead]
  cases (Scan.ofPath file false).read d with
  | ok symbols => rfl
  | error error =>
      cases strict with
      | true => rfl
      | false =>
          simp only [Bool.false_eq_true, if_false, bind,
            Except.bind, pure, Except.pure, Scan.ofPath]
          cases (Notice.skipped (Path.normal file)
            error.message).check <;> rfl

/- The name of a file without its directory and its suffix. -/
def stemOf (file : String) : String :=
  (Route.ofText (Path.normal file)).stem

theorem mem_withStem
    {symbols : List String}
    {symbol : String} :
    symbol ∈ (Scan.ofPath file alone).withStem symbols ↔
      symbol ∈ symbols ∨
        alone = true ∧ symbol = stemOf file := by
  have hStem :
      (Scan.ofPath file alone).withStem symbols =
        if alone && !symbols.contains (stemOf file) then
          symbols ++ [stemOf file]
        else symbols :=
    rfl
  rw [hStem]
  split
  · next hAlone =>
      rw [Bool.and_eq_true] at hAlone
      simp [hAlone.1]
  · next hAlone =>
      rw [Bool.and_eq_true] at hAlone
      grind

/- What a file declares is reported along with any report. -/
theorem Reported.exists_declared
    (hTell : TimesTell disks)
    {symbols : List String}
    (hReported : Reported strict disks file mtime alone symbols) :
    ∃ declared,
      Reported strict disks file mtime false declared ∧
      Reported strict disks file mtime true
        ((Scan.ofPath file true).withStem declared) ∧
      symbols = (Scan.ofPath file alone).withStem declared := by
  rcases hReported.seen with ⟨d, hDisk, hStat⟩
  rcases hReported.scans d hDisk hStat with ⟨notices, hRun⟩
  rw [run_eq_withStem] at hRun
  cases hPlain : (Scan.ofPath file false).run d strict with
  | error error =>
      rw [hPlain] at hRun
      cases hRun
  | ok result =>
      have hAlone :
          (Scan.ofPath file true).run d strict =
            .ok { result with
              symbols :=
                (Scan.ofPath file true).withStem
                  result.symbols } := by
        rw [run_eq_withStem, hPlain]
        rfl
      rw [hPlain] at hRun
      cases hRun
      exact ⟨result.symbols,
        reported_of_run hTell hDisk hStat hPlain,
        reported_of_run hTell hDisk hStat hAlone, rfl⟩

end Index

end SymbolAtlas

------------------------------------------------------------
-- Completeness
------------------------------------------------------------

namespace SymbolAtlas

namespace Snapshot

/-
  If the file is recorded, the symbols in it are those that a
  scan reports for what it was at the time.
-/
def CompleteAt
    (strict : Bool)
    (disks : List Disk)
    (k : Snapshot)
    (file : String) : Prop :=
  ∀ mtime, k.Records file mtime →
    ∃ alone symbols,
      Index.Reported strict disks file mtime alone symbols ∧
      ∀ symbol, k.Maps file symbol ↔ symbol ∈ symbols

/- All files that are recorded are known completely. -/
def Complete
    (strict : Bool)
    (disks : List Disk)
    (k : Snapshot) : Prop :=
  ∀ file, k.CompleteAt strict disks file

/-
  The file is recorded without a symbol that it declared at the
  time.
-/
def Lacks
    (strict : Bool)
    (disks : List Disk)
    (k : Snapshot)
    (file : String) : Prop :=
  ∃ mtime declared,
    k.Records file mtime ∧
    Index.Reported strict disks file mtime false declared ∧
    ∃ symbol ∈ declared, ¬ k.Maps file symbol

variable {strict : Bool} {disks : List Disk} {k l : Snapshot}
variable {file : String} {mtime : Int}

theorem CompleteAt.of_sameFile
    (hComplete : k.CompleteAt strict disks file)
    (hSame : k.SameFile l file) :
    l.CompleteAt strict disks file := by
  intro mtime hRecords
  rw [← hSame.records_iff] at hRecords
  simp only [← hSame.maps_iff]
  exact hComplete mtime hRecords

/- Nothing has to be known of a file that is not recorded. -/
theorem completeAt_of_none
    (hHas : k.Has file mtime [] none) :
    k.CompleteAt strict disks file :=
  fun time hRecords => absurd hRecords (hHas.not_records time)

theorem completeAt_of_whole
    {alone : Bool}
    {symbols reported : List String}
    (hReported :
      Index.Reported strict disks file mtime alone reported)
    (hSymbols : ∀ symbol, symbol ∈ symbols ↔ symbol ∈ reported)
    (hHas :
      k.Has file mtime symbols (emptyTime symbols mtime)) :
    k.CompleteAt strict disks file := by
  intro time hRecords
  rw [hHas.records_whole_iff] at hRecords
  subst hRecords
  refine ⟨alone, reported, hReported, ?_⟩
  intro symbol
  rw [hHas.maps_iff, hSymbols]

/-
  A file that has some of the symbols that are reported for it
  is complete, or lacks one that it declares. Only the stem can
  be absent from a file that is complete.
-/
theorem completeAt_or_lacks
    (hTell : Index.TimesTell disks)
    {alone : Bool}
    {symbols : List String}
    (hReported :
      Index.Reported strict disks file mtime alone symbols)
    (hTimes : ∀ time, k.Records file time → time = mtime)
    (hSome : ∀ symbol, k.Maps file symbol → symbol ∈ symbols) :
    k.CompleteAt strict disks file ∨
    k.Lacks strict disks file := by
  rcases hReported.exists_declared hTell with
    ⟨declared, hDeclared, hAlone, rfl⟩
  by_cases hAll : ∀ symbol ∈ declared, k.Maps file symbol
  · left
    intro time hRecords
    have hTime := hTimes time hRecords
    subst hTime
    by_cases hStem : k.Maps file (Index.stemOf file)
    · refine ⟨true, _, hAlone, ?_⟩
      intro symbol
      rw [Index.mem_withStem]
      constructor
      · intro hMaps
        exact (Index.mem_withStem.mp (hSome symbol hMaps)).imp_right
          fun hStem => ⟨rfl, hStem.2⟩
      · rintro (hSymbol | ⟨-, hEq⟩)
        · exact hAll symbol hSymbol
        · rw [hEq]
          exact hStem
    · refine ⟨false, _, hDeclared, ?_⟩
      intro symbol
      refine ⟨?_, hAll symbol⟩
      intro hMaps
      rcases Index.mem_withStem.mp (hSome symbol hMaps) with
        hSymbol | ⟨-, hEq⟩
      · exact hSymbol
      · rw [hEq] at hMaps
        exact absurd hMaps hStem
  · by_cases hRecorded : ∃ time, k.Records file time
    · right
      rcases hRecorded with ⟨time, hRecords⟩
      have hTime := hTimes time hRecords
      subst hTime
      simp only [not_forall] at hAll
      rcases hAll with ⟨symbol, hSymbol, hNot⟩
      exact ⟨time, declared, hRecords, hDeclared, symbol, hSymbol,
        hNot⟩
    · left
      intro time hRecords
      exact absurd ⟨time, hRecords⟩ hRecorded

/- What lacks a symbol is not complete. -/
theorem Lacks.not_completeAt
    (hTell : Index.TimesTell disks)
    (hLacks : k.Lacks strict disks file) :
    ¬ k.CompleteAt strict disks file := by
  rcases hLacks with
    ⟨mtime, declared, hRecords, hDeclared, symbol, hSymbol, hNot⟩
  intro hComplete
  rcases hComplete mtime hRecords with
    ⟨alone, symbols, hReported, hMaps⟩
  rcases hReported.exists_declared hTell with
    ⟨others, hOthers, -, rfl⟩
  rw [hDeclared.eq hOthers] at hSymbol
  exact hNot ((hMaps symbol).mpr
    (Index.mem_withStem.mpr (Or.inl hSymbol)))

end Snapshot

end SymbolAtlas

------------------------------------------------------------
-- Calls and Completeness
------------------------------------------------------------

namespace SymbolAtlas

namespace Index

/-
  A call leaves off at a file and leaves it recorded without a
  symbol that it declares.
-/
def Tears
    (disks : List Disk)
    (c : Context)
    (i : Index)
    (call : Call) : Prop :=
  ∃ file,
    LeavesOff c i call file ∧
    (call.after c i).known.Lacks c.strict disks file

variable {disks : List Disk} {c : Context} {i : Index}
variable (hTell : TimesTell disks) (hDisk : c.disk ∈ disks)
variable (hConsistent : i.known.IsConsistent)
variable (hComplete : i.known.Complete c.strict disks)

include hTell hDisk hConsistent hComplete

/-
  What a source is found to declare is what a scan reports, for
  what is remembered of it is complete.
-/
theorem reported_of_found
    {source : Source}
    {result : Scan.Result}
    (hSource : source ∈ sourcesOf c)
    (hFound :
      found c (Memory.ofSnapshot i.known) source = .ok result) :
    ∃ alone symbols,
      Reported c.strict disks source.path source.mtime alone
        symbols ∧
      ∀ symbol, symbol ∈ result.symbols ↔ symbol ∈ symbols := by
  unfold found at hFound
  by_cases hRecords :
      i.known.Records source.path source.mtime
  · rw [Memory.symbols?_of_records hConsistent hRecords] at hFound
    cases hFound
    simp only [Memory.mem_symbolsOf_iff]
    exact hComplete source.path source.mtime hRecords
  · rw [Memory.symbols?_of_not_records hConsistent hRecords]
      at hFound
    have hStat :=
      Sources.stat_of_mem_ofSettings
        (Sources.firsts_subset hSource)
    exact ⟨source.alone, result.symbols,
      reported_of_run hTell hDisk hStat hFound,
      fun _ => Iff.rfl⟩

/- Where a call leaves off it tears the file, or no harm is done. -/
theorem completeAt_or_lacks_of_leavesOff
    {call : Call}
    {file : String}
    (hLeaves : LeavesOff c i call file) :
    (call.after c i).known.CompleteAt c.strict disks file ∨
    (call.after c i).known.Lacks c.strict disks file := by
  have hTimes :
      ∀ {k : Snapshot} {file mtime before},
        k.Has file mtime before none →
          ∀ time, k.Records file time → time = mtime := by
    intro k file mtime before hHas time hRecords
    rw [hHas.records_iff] at hRecords
    rcases hRecords with hNone | hSome
    · cases hNone
    · exact hSome.2
  rcases hLeaves.views with ⟨mtime, hNone⟩ |
    ⟨source, hSource, rfl, result, before, symbol, after, hFound,
      hSymbols, hHas⟩ |
    ⟨mtime, alone, result, before, symbol, after, hStat, hRun,
      hSymbols, hHas⟩ |
    ⟨symbol, entry, rfl, hDrops, rfl⟩
  · exact Or.inl (Snapshot.completeAt_of_none hNone)
  · rcases reported_of_found hTell hDisk hConsistent hComplete
        hSource hFound with ⟨alone, symbols, hReported, hSame⟩
    refine Snapshot.completeAt_or_lacks hTell hReported
      (hTimes hHas) ?_
    intro name hName
    rw [hHas.maps_iff] at hName
    rw [← hSame, hSymbols]
    exact List.mem_append_left _ hName
  · refine Snapshot.completeAt_or_lacks hTell
      (reported_of_run hTell hDisk hStat hRun) (hTimes hHas) ?_
    intro name hName
    rw [hHas.maps_iff] at hName
    rw [hSymbols]
    exact List.mem_append_left _ hName
  · obtain ⟨file, mtime⟩ := entry
    have hMaps : i.known.symbols.get? symbol = some ⟨file, mtime⟩ :=
      hDrops.2.1
    rcases hComplete file mtime (Or.inr ⟨symbol, hMaps⟩) with
      ⟨alone, symbols, hReported, hSame⟩
    refine Snapshot.completeAt_or_lacks hTell hReported ?_ ?_
    · -- The file is not empty, so one of its symbols is left.
      rintro time (hEmpty | ⟨name, hName⟩)
      · change (Work.stateAfter
          (lookup c symbol i)).known.emptyFiles.get? _ = _ at hEmpty
        rw [(lookup_of_drops hDrops).2] at hEmpty
        exact absurd ⟨mtime, hMaps⟩
          (hConsistent.apart file time symbol hEmpty)
      · exact hConsistent.oneTime name symbol file time mtime
          (entry_of_drops hDrops hName) hMaps
    · rintro name ⟨time, hName⟩
      rw [← hSame]
      exact ⟨time, entry_of_drops hDrops hName⟩

/- A call that tears no file keeps all files complete. -/
theorem complete_after_call
    {call : Call}
    (hWhole : ¬ Tears disks c i call) :
    (call.after c i).known.Complete c.strict disks := by
  intro file
  rcases call_cases c i call file with
    hSame | hRenewed | hFound | hLeaves
  · exact (hComplete file).of_sameFile hSame
  · rcases hRenewed with ⟨mtime, hNone⟩ |
      ⟨mtime, alone, result, hStat, hRun, hHas⟩
    · exact Snapshot.completeAt_of_none hNone
    · exact Snapshot.completeAt_of_whole
        (reported_of_run hTell hDisk hStat hRun)
        (fun _ => Iff.rfl) hHas
  · rcases hFound with hNone |
      ⟨source, hSource, rfl, result, hOk, hHas⟩
    · exact Snapshot.completeAt_of_none hNone
    · rcases reported_of_found hTell hDisk hConsistent hComplete
          hSource hOk with ⟨alone, symbols, hReported, hSymbols⟩
      exact Snapshot.completeAt_of_whole hReported hSymbols hHas
  · rcases completeAt_or_lacks_of_leavesOff hTell hDisk
        hConsistent hComplete hLeaves with hDone | hLacks
    · exact hDone
    · exact absurd ⟨file, hLeaves, hLacks⟩ hWhole

end Index

end SymbolAtlas

------------------------------------------------------------
-- Runs and Completeness
------------------------------------------------------------

namespace SymbolAtlas

namespace Index

variable {settings : Settings} {strict : Bool}
variable {disks : List Disk}

/- Turns that tear no file keep all files complete. -/
theorem complete_afterTurns
    (hTell : TimesTell disks)
    {turns : List Turn}
    {i : Index}
    (hDisks : ∀ turn ∈ turns, turn.disk ∈ disks)
    (hConsistent : i.known.IsConsistent)
    (hComplete : i.known.Complete strict disks)
    (hWhole :
      ∀ before turn after,
        turns = before ++ turn :: after →
        ¬ Tears disks (turn.context settings strict)
          (turn.start (afterTurns settings strict i before))
          turn.call) :
    (afterTurns settings strict i turns).known.Complete strict
      disks := by
  induction turns generalizing i with
  | nil => exact hComplete
  | cons first rest ih =>
      apply ih (i := first.after settings strict i)
      · exact fun turn hTurn =>
          hDisks turn (List.mem_cons_of_mem _ hTurn)
      · exact isConsistent_after
          (i := first.start i) hConsistent first.call
      · exact complete_after_call
          (c := first.context settings strict)
          (i := first.start i) hTell
          (hDisks first List.mem_cons_self) hConsistent hComplete
          (hWhole [] first rest rfl)
      · intro before turn after hRest
        exact hWhole (first :: before) turn after
          (by rw [hRest]; rfl)

/- Nothing has to be known when nothing is recorded. -/
theorem complete_of_empty
    (strict : Bool)
    (disks : List Disk) :
    ({} : Snapshot).Complete strict disks := by
  intro file
  have hNone : ({} : Snapshot).Has file 0 [] none :=
    ⟨fun _ _ => by simp, by simp⟩
  exact Snapshot.completeAt_of_none hNone

/-
  From the start on all files are known completely as long as no
  call leaves off between two symbols of a file, and no longer.
-/
theorem complete_iff_never_torn
    (settings : Settings)
    (strict : Bool)
    (turns : List Turn)
    (hTell : TimesTell (turns.map (·.disk))) :
    (∀ before after,
      turns = before ++ after →
      (afterTurns settings strict {} before).known.Complete strict
        (turns.map (·.disk))) ↔
    ∀ before turn after,
      turns = before ++ turn :: after →
      ¬ Tears (turns.map (·.disk)) (turn.context settings strict)
        (turn.start (afterTurns settings strict {} before))
        turn.call := by
  constructor
  · rintro hComplete before turn after hTurns ⟨file, -, hLacks⟩
    have hAfter := hComplete (before ++ [turn]) after
      (by rw [hTurns, List.append_assoc]; rfl)
    have hStep :
        afterTurns settings strict {} (before ++ [turn]) =
          turn.after settings strict
            (afterTurns settings strict {} before) := by
      unfold afterTurns
      rw [List.foldl_append]
      rfl
    rw [hStep] at hAfter
    exact hLacks.not_completeAt hTell (hAfter file)
  · intro hWhole before after hTurns
    apply complete_afterTurns hTell
    · intro turn hTurn
      rw [hTurns]
      exact List.mem_map_of_mem (List.mem_append_left _ hTurn)
    · exact Snapshot.isConsistent_of_empty _
    · exact complete_of_empty strict _
    · intro first turn rest hBefore
      apply hWhole first turn (rest ++ after)
      rw [hTurns, hBefore, List.append_assoc]
      rfl

/- Two roots that both declare one symbol. -/
def rivalSources : Disk where
  nodes := [
    (["w"], .newDirectory),
    (["w", "a.php"], .file "<?php class X {}".toUTF8 1000),
    (["w", "b.php"],
      .file "<?php class Y {} class X {}".toUTF8 1000)]

def rivalSettings : Settings where
  projectDir := "/w"
  roots := ["a.php", "b.php"]

/- All is scanned, and then again. -/
def rivalTurns : List Turn :=
  [⟨rivalSources, {}, .rebuild⟩, ⟨rivalSources, {}, .rebuild⟩]

theorem rival_run :
    (rebuild ⟨rivalSources, rivalSettings, true⟩ {} matches
      .error (.ambiguous _ _ _) _) = true ∧
    (rebuild ⟨rivalSources, rivalSettings, true⟩
      (afterTurns rivalSettings true {}
        (rivalTurns.take 1)) matches .ok _ _) = true ∧
    (rivalSources.stat "/w/b.php").toOption =
      some ⟨false, 1000⟩ ∧
    ((Scan.ofPath "/w/b.php" false).run rivalSources
      true).toOption = some ⟨["Y", "X"], []⟩ ∧
    (afterTurns rivalSettings true {}
      (rivalTurns.take 1)).known.Records "/w/b.php" 1000 ∧
    ¬ (afterTurns rivalSettings true {}
      (rivalTurns.take 1)).known.Maps "/w/b.php" "X" := by
  decide +kernel

/-
  The first call ends with the conflict and tears the second
  file, so the second call sees no conflict.
-/
theorem conflict_torn_by_rebuild :
    TimesTell (rivalTurns.map (·.disk)) ∧
    (rebuild ⟨rivalSources, rivalSettings, true⟩ {} matches
      .error (.ambiguous _ _ _) _) = true ∧
    (rebuild ⟨rivalSources, rivalSettings, true⟩
      (afterTurns rivalSettings true {}
        (rivalTurns.take 1)) matches .ok _ _) = true ∧
    ∃ before turn after,
      rivalTurns = before ++ turn :: after ∧
      Tears (rivalTurns.map (·.disk))
        (turn.context rivalSettings true)
        (turn.start (afterTurns rivalSettings true {} before))
        turn.call := by
  rcases rival_run with
    ⟨hConflict, hAgain, hStat, hRun, hRecords, hMaps⟩
  have hTell : TimesTell (rivalTurns.map (·.disk)) := by
    intro d hDisk e hOther path mtime hStat hSame
    simp only [rivalTurns, List.map_cons, List.map_nil,
      List.mem_cons, List.not_mem_nil, or_false, or_self]
      at hDisk hOther
    rw [hDisk, hOther]
  refine ⟨hTell, hConflict, hAgain, ?_⟩
  by_contra hNever
  have hComplete :=
    (complete_iff_never_torn rivalSettings true rivalTurns
      hTell).mpr
      fun before turn after hTurns hTears =>
        hNever ⟨before, turn, after, hTurns, hTears⟩
  have hReported :
      Reported true (rivalTurns.map (·.disk)) "/w/b.php" 1000 false
        ["Y", "X"] :=
    reported_of_run hTell List.mem_cons_self
      (Work.toOption_eq_some_iff.mp hStat)
      (Work.toOption_eq_some_iff.mp hRun)
  have hLacks :
      (afterTurns rivalSettings true {}
        (rivalTurns.take 1)).known.Lacks true
          (rivalTurns.map (·.disk)) "/w/b.php" :=
    ⟨1000, ["Y", "X"], hRecords, hReported, "X", by simp, hMaps⟩
  exact hLacks.not_completeAt hTell
    (hComplete (rivalTurns.take 1) (rivalTurns.drop 1)
      (List.take_append_drop 1 rivalTurns).symm "/w/b.php")

end Index

end SymbolAtlas
