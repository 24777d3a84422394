import Mathlib.Data.List.Induction
import Mathlib.Data.List.Infix
import SymbolAtlas.Proofs.Loader.Calls

/-
  What is kept in an artifact.

  A loader starts with an artifact that has a symbol in a file,
  and the entry stays right while calls are made. Whenever a
  call rewrites the artifact, it is what the index knows then.
  The symbol is missing from it exactly if the loader is closed
  after a scan of everything that went wrong before it came to
  the file, and was not repeated since.

  Key definitions:
    * `Loader.afterCalls`
    * `Loader.LeftOut`
  Key theorems:
    * `Loader.leftOut_iff`
    * `Loader.rewritten_artifact_keeps_iff`
-/

------------------------------------------------------------
-- Runs
------------------------------------------------------------

namespace SymbolAtlas

namespace Loader

/- The loader after calls, whatever their outcomes. -/
def afterCalls (l : Loader) (calls : List Call) : Loader :=
  calls.foldl Call.after l

theorem afterCalls_concat
    (l : Loader)
    (calls : List Call)
    (call : Call) :
    afterCalls l (calls ++ [call]) =
      call.after (afterCalls l calls) := by
  unfold afterCalls
  rw [List.foldl_append]
  rfl

/-
  The last of the calls that scanned everything has failed, and
  left the symbol out of its file.
-/
def LeftOut
    (symbol : String)
    (entry : Entry)
    (l : Loader)
    (calls : List Call) : Prop :=
  ∃ before failing after error final,
    calls = before ++ failing :: after ∧
    failing.run (afterCalls l before) = .error error final ∧
    final.walks = (afterCalls l before).walks + 1 ∧
    ¬ final.index.known.Maps entry.file symbol ∧
    (afterCalls l calls).walks = final.walks

variable {l m : Loader} {s : Store} {place : Place}
variable {symbol : String} {entry : Entry} {call : Call}
variable {content : ByteArray}

theorem Outcome.walks_le
    (hOutcome : Outcome s place content symbol entry call l m) :
    l.walks ≤ m.walks := by
  rcases hOutcome.scans with ⟨hWalks, -⟩ | ⟨hWalks, -⟩
  · exact Nat.le_of_eq hWalks.symm
  · rw [hWalks]
    exact Nat.le_succ _

/- A loader that has scanned is at work. -/
theorem sound_of_walks
    (hReady : Ready s place content symbol entry m)
    (hWalks : 0 < m.walks) :
    Sound s place symbol entry m := by
  rcases hReady with hFresh | hSound
  · unfold walks at hWalks
    rw [hFresh.index] at hWalks
    exact absurd hWalks (Nat.lt_irrefl 0)
  · exact hSound

/-
  A symbol is left out after a call that failed to scan, or it
  was left out before and there was no scan.
-/
theorem leftOut_concat_iff
    {calls : List Call}
    (hMonotone :
      ∀ before after, calls = before ++ after →
        (afterCalls l before).walks ≤
          (afterCalls l calls).walks)
    (hOutcome :
      Outcome s place content symbol entry call
        (afterCalls l calls) (call.after (afterCalls l calls))) :
    LeftOut symbol entry l (calls ++ [call]) ↔
      ((∃ error final,
        call.run (afterCalls l calls) = .error error final ∧
        final.walks = (afterCalls l calls).walks + 1 ∧
        ¬ final.index.known.Maps entry.file symbol) ∨
      LeftOut symbol entry l calls ∧
        (call.after (afterCalls l calls)).walks =
          (afterCalls l calls).walks) := by
  unfold LeftOut
  rw [afterCalls_concat]
  constructor
  · rintro ⟨before, failing, after, error, final, hCalls, hRun,
      hWalks, hMaps, hLast⟩
    rcases List.eq_nil_or_concat after with rfl |
      ⟨rest, last, rfl⟩
    · left
      rcases List.append_inj' hCalls rfl with ⟨rfl, hSame⟩
      cases hSame
      exact ⟨error, final, hRun, hWalks, hMaps⟩
    · right
      rw [List.concat_eq_append, ← List.cons_append,
        ← List.append_assoc] at hCalls
      rcases List.append_inj' hCalls rfl with ⟨hFirst, -⟩
      have hMiddle :
          final.walks ≤ (afterCalls l calls).walks := by
        have hStep :
            afterCalls l (before ++ [failing]) = final := by
          rw [afterCalls_concat]
          unfold Call.after
          rw [hRun]
          rfl
        rw [← hStep]
        apply hMonotone (before ++ [failing]) rest
        rw [hFirst, List.append_assoc]
        rfl
      have hLe := hOutcome.walks_le
      refine ⟨⟨before, failing, rest, error, final, hFirst, hRun,
        hWalks, hMaps, ?_⟩, ?_⟩
      · omega
      · omega
  · rintro (⟨error, final, hRun, hWalks, hMaps⟩ |
      ⟨⟨before, failing, after, error, final, hCalls, hRun,
        hWalks, hMaps, hLast⟩, hSame⟩)
    · refine ⟨calls, call, [], error, final, rfl, hRun, hWalks,
        hMaps, ?_⟩
      unfold Call.after
      rw [hRun]
      rfl
    · refine ⟨before, failing, after ++ [call], error, final, ?_,
        hRun, hWalks, hMaps, hSame.trans hLast⟩
      rw [hCalls, List.append_assoc]
      rfl

/- One call more leaves the symbol out, or leaves it in. -/
theorem leftOut_concat_iff_not_keeps
    {calls : List Call}
    (hMonotone :
      ∀ before after, calls = before ++ after →
        (afterCalls l before).walks ≤
          (afterCalls l calls).walks)
    (hOutcome :
      Outcome s place content symbol entry call
        (afterCalls l calls) (call.after (afterCalls l calls)))
    (hBefore :
      LeftOut symbol entry l calls ↔
        ¬ Keeps symbol entry (afterCalls l calls)) :
    LeftOut symbol entry l (calls ++ [call]) ↔
      ¬ Keeps symbol entry
        (call.after (afterCalls l calls)) := by
  rw [leftOut_concat_iff hMonotone hOutcome, hBefore]
  have hAfter :
      ∀ {error final},
        call.run (afterCalls l calls) = .error error final →
          call.after (afterCalls l calls) = final := by
    intro error final hRun
    unfold Call.after
    rw [hRun]
    rfl
  rcases hOutcome.scans with ⟨hWalks, hSame⟩ | ⟨hWalks, hScan⟩
  · rw [hSame]
    constructor
    · rintro (⟨error, final, hRun, hMore, -⟩ | ⟨hNot, -⟩)
      · rw [hAfter hRun, hMore] at hWalks
        omega
      · exact hNot
    · intro hNot
      exact Or.inr ⟨hNot, hWalks⟩
  · have hSound :=
      sound_of_walks hOutcome.ready (by rw [hWalks]; omega)
    rw [hSound.keeps_iff]
    constructor
    · rintro (⟨error, final, hRun, -, hMaps⟩ | ⟨-, hNone⟩)
      · rw [hAfter hRun]
        exact hMaps
      · omega
    · intro hNot
      left
      rcases hScan with hKeeps | ⟨error, hRun⟩
      · exact absurd (hSound.keeps_iff.mp hKeeps) hNot
      · exact ⟨error, _, hRun, hWalks, hNot⟩

section Runs

variable {calls : List Call} {k : Snapshot}
variable (hFresh : Fresh s place content l)
variable (hArtifact : Snapshot.ofArtifact content = .ok k)
variable (hConsistent : k.IsConsistent)
variable (hEntry : k.symbols.get? symbol = some entry)
variable (hSteady :
  ∀ before after, calls = before ++ after →
    Steady s symbol entry (afterCalls l before))

include hFresh hArtifact hConsistent hEntry hSteady

/-
  Along a run loaders are ready, scans are counted, and a symbol
  is left out exactly if the index does not have it in its file.
-/
theorem ready_and_leftOut_iff :
    ∀ before after, calls = before ++ after →
      Ready s place content symbol entry (afterCalls l before) ∧
      (∀ first rest, before = first ++ rest →
        (afterCalls l first).walks ≤
          (afterCalls l before).walks) ∧
      (LeftOut symbol entry l before ↔
        ¬ Keeps symbol entry (afterCalls l before)) := by
  intro before
  induction before using List.reverseRecOn with
  | nil =>
      intro after hCalls
      refine ⟨Or.inl hFresh, ?_, ?_⟩
      · intro first rest hNil
        rw [(List.append_eq_nil_iff.mp hNil.symm).1]
      · constructor
        · rintro ⟨first, failing, rest, _, _, hNil, -⟩
          simp at hNil
        · intro hNot
          exact absurd hFresh.keeps hNot
  | append_singleton before call ih =>
      intro after hCalls
      rw [List.append_assoc] at hCalls
      rcases ih _ hCalls with ⟨hReady, hMonotone, hBefore⟩
      have hOutcome :=
        outcome_of_call hReady (hSteady before _ hCalls) hArtifact
          hConsistent hEntry call
      rw [leftOut_concat_iff_not_keeps hMonotone hOutcome hBefore,
        afterCalls_concat]
      refine ⟨hOutcome.ready, ?_, Iff.rfl⟩
      intro first rest hSplit
      rcases List.eq_nil_or_concat rest with rfl |
        ⟨others, last, rfl⟩
      · rw [List.append_nil] at hSplit
        rw [← hSplit, afterCalls_concat]
      · rw [List.concat_eq_append, ← List.append_assoc] at hSplit
        rcases List.append_inj' hSplit rfl with ⟨hFirst, -⟩
        exact (hMonotone first others hFirst).trans
          hOutcome.walks_le

end Runs

/-
  A symbol whose entry stays right is in the artifact whenever a
  call rewrites it, unless the call closes the loader after a
  scan that failed and left the symbol out.
-/
theorem rewritten_artifact_keeps_iff
    {l : Loader}
    {s : Store}
    {content : ByteArray}
    {k : Snapshot}
    {symbol : String}
    {entry : Entry}
    {calls : List Call}
    (hIndex : l.index = {})
    (hCwd : l.desk.disk.Grounded l.desk.disk.cwd)
    (hPath : ¬ l.desk.disk.IsLink s.path)
    (hTemp : ¬ l.desk.disk.IsLink s.tempPath)
    (hRead : l.desk.disk.read s.path = .ok content)
    (hArtifact : Snapshot.ofArtifact content = .ok k)
    (hConsistent : k.IsConsistent)
    (hEntry : k.symbols.get? symbol = some entry)
    (hSteady :
      ∀ before after, calls = before ++ after →
        Steady s symbol entry (afterCalls l before)) :
    ∀ before call after, calls = before ++ call :: after →
      (afterCalls l (before ++ [call])).desk.disk.read s.path ≠
        (afterCalls l before).desk.disk.read s.path →
      (afterCalls l (before ++ [call])).desk.disk.read s.path =
        .ok (afterCalls l
          (before ++ [call])).index.known.artifact.toUTF8 ∧
      ((afterCalls l (before ++ [call])).index.known.Maps
          entry.file symbol ↔
        ¬ (call = .close ∧ LeftOut symbol entry l before)) := by
  have hStart : Steady s symbol entry l := hSteady [] calls rfl
  have hKey := hStart.not_mem_key
  rcases Store.holds_of_read hKey hCwd hRead hPath hTemp with
    ⟨place, hHolds⟩
  have hFresh : Fresh s place content l := ⟨hIndex, hHolds⟩
  intro before call after hCalls hRewritten
  rcases ready_and_leftOut_iff hFresh hArtifact hConsistent hEntry
      hSteady before (call :: after) hCalls with
    ⟨hReady, -, hLeftOut⟩
  have hOutcome :=
    outcome_of_call hReady (hSteady before _ hCalls) hArtifact
      hConsistent hEntry call
  rw [afterCalls_concat] at hRewritten ⊢
  rcases hOutcome.artifact with hAlone |
    ⟨hWritten, hLoaded, hCause⟩
  · rcases hReady.holds with ⟨other, hOther⟩
    rw [(hAlone other hOther).read_eq hKey,
      hOther.read_eq hKey] at hRewritten
    exact absurd rfl hRewritten
  · have hMaps :
        Keeps symbol entry (call.after (afterCalls l before)) ↔
          (call.after (afterCalls l before)).index.known.Maps
            entry.file symbol :=
      ⟨fun hKeeps => hKeeps hLoaded, fun hMaps _ => hMaps⟩
    have hClosed :
        call = .close →
          (Keeps symbol entry (afterCalls l before) ↔
            Keeps symbol entry
              (call.after (afterCalls l before))) := by
      rintro rfl
      have hWalks :=
        (outcome_close hReady (hSteady before _ hCalls)).2
      rcases hOutcome.scans with ⟨-, hSame⟩ | ⟨hMore, -⟩
      · exact hSame
      · omega
    refine ⟨hWritten.read_eq hKey, ?_⟩
    rw [← hMaps, hLeftOut]
    constructor
    · rintro hKeeps ⟨hClose, hNot⟩
      exact hNot ((hClosed hClose).mpr hKeeps)
    · intro hNot
      rcases hCause with hClose | hKeeps
      · by_contra hLost
        exact hNot ⟨hClose, fun hKeeps =>
          hLost ((hClosed hClose).mp hKeeps)⟩
      · exact hKeeps

/- What an earlier session has saved. -/
def earlierSnapshot : Snapshot where
  symbols := .ofList [("X", ⟨"/w/b.php", 1000⟩)]

/- A source that cannot be read comes before one that can. -/
def faultyLoader : Loader where
  settings :=
    { projectDir := "/w"
      roots := ["a.php", "b.php"]
      cacheDir := some "/w/cache" }
  strict := true
  desk :=
    { disk :=
        { nodes := [
            (["w"], .newDirectory),
            (["w", "a.php"], .file "<?php class".toUTF8 2000),
            (["w", "b.php"], .file "<?php class X {}".toUTF8 1000),
            (["w", "cache"], .newDirectory),
            (["w", "cache",
                "ff523da75c7edb83079be6aa36598fc2.json"],
              .file earlierSnapshot.artifact.toUTF8 0)] } }

def faultyStore : Store where
  directory := "/w/cache"
  key := "ff523da75c7edb83079be6aa36598fc2"

def faultyCalls : List Call :=
  [.rebuild, .resolve "Y"]

theorem faulty_run :
    ((faultyLoader.desk.disk.read faultyStore.path).toOption.bind
      fun content => (Snapshot.ofArtifact content).toOption) =
        some earlierSnapshot ∧
    ¬ faultyLoader.desk.disk.IsLink faultyStore.path ∧
    ¬ faultyLoader.desk.disk.IsLink faultyStore.tempPath ∧
    (∀ before ∈ List.inits (faultyCalls ++ [.close]),
      Steady faultyStore "X" ⟨"/w/b.php", 1000⟩
        (afterCalls faultyLoader before)) ∧
    ¬ (afterCalls faultyLoader
        (faultyCalls ++ [.close])).index.known.Maps
          "/w/b.php" "X" ∧
    ((afterCalls faultyLoader
        (faultyCalls ++ [.close])).desk.disk.read
          faultyStore.path).toOption.map ByteArray.size ≠
      ((afterCalls faultyLoader faultyCalls).desk.disk.read
          faultyStore.path).toOption.map ByteArray.size := by
  decide +kernel

/- The loader saves what a scan that failed has left. -/
theorem close_saves_without_symbol :
    (afterCalls faultyLoader
        (faultyCalls ++ [.close])).desk.disk.read
          faultyStore.path =
      .ok (afterCalls faultyLoader
        (faultyCalls ++ [.close])).index.known.artifact.toUTF8 ∧
    ¬ (afterCalls faultyLoader
        (faultyCalls ++ [.close])).index.known.Maps
          "/w/b.php" "X" ∧
    LeftOut "X" ⟨"/w/b.php", 1000⟩ faultyLoader faultyCalls := by
  rcases faulty_run with
    ⟨hLoads, hPath, hTemp, hSteady, hMaps, hChanged⟩
  rcases Option.bind_eq_some_iff.mp hLoads with
    ⟨content, hRead, hArtifact⟩
  have hAlways :
      ∀ before after, faultyCalls ++ [.close] = before ++ after →
        Steady faultyStore "X" ⟨"/w/b.php", 1000⟩
          (afterCalls faultyLoader before) := by
    intro before after hCalls
    apply hSteady before
    rw [List.mem_inits]
    exact ⟨after, hCalls.symm⟩
  rcases rewritten_artifact_keeps_iff rfl (Disk.grounded_nil _)
      hPath hTemp (Work.toOption_eq_some_iff.mp hRead)
      (Work.toOption_eq_some_iff.mp hArtifact) (by decide)
      (by decide) hAlways faultyCalls .close [] rfl
      (fun hSame => hChanged (by rw [hSame])) with
    ⟨hWritten, hKept⟩
  refine ⟨hWritten, hMaps, ?_⟩
  by_contra hNot
  exact hMaps (hKept.mpr fun hLeftOut => hNot hLeftOut.2)

end Loader

end SymbolAtlas
