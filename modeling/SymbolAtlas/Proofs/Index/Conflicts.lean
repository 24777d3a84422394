import SymbolAtlas.Proofs.Index.Agreement
import SymbolAtlas.Proofs.Index.Origins
import SymbolAtlas.Proofs.Search.Failures

/-
  Conflicts of a file with itself.

  A rebuild tells sources apart by their texts. If two of them
  declare one symbol it ends in a conflict, be they two files or
  two names of one file. A way to a source that starts at a real
  path and meets no link gives the source its real path, so of
  two names of one file at least one has no such way.

  Key definitions:
    * `Search.IsDirect`
  Key theorems:
    * `Sources.Reaches.resolve_eq_of_isDirect`
    * `Index.conflict_of_rebuild`
    * `Index.conflict_of_one_file`
-/

------------------------------------------------------------
-- Direct Ways
------------------------------------------------------------

namespace SymbolAtlas

namespace Path

/- The text of a place ends in its last name. -/
theorem getLast?_textOf
    {front : Place}
    {last : String}
    (hLast : Disk.IsName last) :
    (Disk.textOf (front ++ [last])).toList.getLast? ≠
      some '/' := by
  have hEnd :
      ∃ text, Disk.textOf (front ++ [last]) = text ++ last := by
    unfold Disk.textOf
    by_cases hFront : front = []
    · exact ⟨"/", by rw [hFront]; rfl⟩
    · refine ⟨"/" ++ (joined front ++ "/"), ?_⟩
      rw [joined_concat hFront]
      simp only [String.append_assoc]
  rcases hEnd with ⟨text, hText⟩
  have hSome : last.toList ≠ [] := by
    simpa using hLast.ne_empty
  rw [hText, String.toList_append,
    List.getLast?_append_of_ne_nil _ hSome]
  intro hSlash
  exact hLast.2 (List.mem_of_getLast? hSlash)

/- A name below a place makes the text of a place below it. -/
theorem child_textOf
    {place : Place}
    {name : String}
    (hPlace : ∀ other ∈ place, Disk.IsName other)
    (hName : Disk.IsName name) :
    child (Disk.textOf place) name =
      Disk.textOf (place ++ [name]) := by
  induction place using List.reverseRecOn with
  | nil =>
      rcases child_cases (Disk.textOf []) hName with
        ⟨hChild, -⟩ | ⟨-, -, hEnd⟩
      · rw [hChild]
        rfl
      · exact absurd rfl hEnd
  | append_singleton front last _ =>
      have hEnd :
          (Disk.textOf (front ++ [last])).toList.getLast? ≠
            some '/' :=
        getLast?_textOf (hPlace last (by simp))
      rcases child_cases (Disk.textOf (front ++ [last])) hName with
        ⟨-, hNil | hSlash⟩ | ⟨hChild, -⟩
      · simp [Disk.textOf] at hNil
      · exact absurd hSlash hEnd
      · have hSome : front ++ [last] ≠ [] := by simp
        rw [hChild]
        unfold Disk.textOf
        rw [joined_concat hSome]
        simp only [String.append_assoc]

theorem below_textOf
    {place : Place}
    {trail : List String}
    (hPlace : ∀ other ∈ place, Disk.IsName other)
    (hTrail : ∀ other ∈ trail, Disk.IsName other) :
    below (Disk.textOf place) trail =
      Disk.textOf (place ++ trail) := by
  induction trail generalizing place with
  | nil => rw [List.append_nil]; rfl
  | cons name rest ih =>
      have hName := hTrail name List.mem_cons_self
      have hStep :
          below (Disk.textOf place) (name :: rest) =
            below (child (Disk.textOf place) name) rest :=
        rfl
      rw [hStep, child_textOf hPlace hName, ih]
      · simp
      · intro other hOther
        rcases List.mem_append.mp hOther with hOld | hNew
        · exact hPlace other hOld
        · rw [List.mem_singleton.mp hNew]
          exact hName
      · exact fun other hOther =>
          hTrail other (List.mem_cons_of_mem _ hOther)

end Path

namespace Search

/-
  The way starts as it would at a real path, and meets no link.
-/
structure IsDirect
    (d : Disk)
    (start : String)
    (trail : List String) : Prop where
  starts :
    ∃ real,
      d.resolve start = .ok real ∧
      Path.below real trail = Path.below start trail
  links :
    ∀ steps,
      steps ≠ [] →
      steps <+: trail →
        ¬ d.IsLink (Path.below start steps)

variable {d : Disk} {start : String} {trail : List String}

end Search

namespace Sources

variable {d : Disk} {s : Settings}
variable {start path : String} {trail : List String}

/- A source with a direct way is named by its real path. -/
theorem Reaches.resolve_eq_of_isDirect
    (hTree : d.IsTree)
    (hSound : d.IsSound)
    (hReaches : Reaches d s start trail path)
    (hDirect : Search.IsDirect d start trail) :
    d.resolve path = .ok path := by
  rcases hReaches.exists_start hTree hSound with ⟨first, hStart⟩
  have hSteps := hReaches.steps hTree hSound
  have hEnd := hSteps.leadsTo_append hStart hDirect.links
  rcases hDirect.starts with ⟨real, hReal, hBelow⟩
  rw [hStart.resolve_eq hTree hSound] at hReal
  cases hReal
  have hNames : ∀ name ∈ trail, Disk.IsName name :=
    Search.AllSteps.forall_mem hSteps fun _ _ hStep => hStep.1
  rw [Path.below_textOf (hStart.isName hSound) hNames] at hBelow
  rw [hReaches.path_eq, hEnd.resolve_eq hTree hSound, hBelow]

end Sources

end SymbolAtlas

------------------------------------------------------------
-- Two Names of One File
------------------------------------------------------------

namespace SymbolAtlas

namespace Disk

variable {d : Disk} {path other : String} {place : Place}

/- Two names of one place have the same content. -/
theorem LeadsTo.read_normal_eq
    (hPlace : d.LeadsTo path place)
    (hOther : d.LeadsTo other place) :
    d.read (Path.normal path) = d.read (Path.normal other) := by
  rcases hPlace with ⟨node, hLocate, -⟩
  rcases hOther with ⟨otherNode, hLocateOther, -⟩
  have hSame : some node = some otherNode :=
    (node_of_locate hLocate).trans (node_of_locate hLocateOther).symm
  cases hSame
  unfold read
  rw [locate_normal hLocate, locate_normal hLocateOther]

/- Real paths tell places apart. -/
theorem textOf_inj
    {first second : Place}
    (hFirst : ∀ name ∈ first, IsName name)
    (hSecond : ∀ name ∈ second, IsName name)
    (hText : textOf first = textOf second) :
    first = second := by
  rw [← text_of_place, ← text_of_place] at hText
  have hRoute := congrArg Route.ofText hText
  rw [(isRead_of_isName hFirst).ofText_text,
    (isRead_of_isName hSecond).ofText_text] at hRoute
  exact congrArg Route.names hRoute

end Disk

namespace Index

variable {c : Context}

/- Two names of one content are read alike. -/
theorem read_of_read_eq
    {file other : String}
    {alone too : Bool}
    {symbols : List String}
    (hRead :
      c.disk.read (Path.normal file) =
        c.disk.read (Path.normal other))
    (hScan : (Scan.ofPath file alone).read c.disk = .ok symbols) :
    (Scan.ofPath other too).read c.disk = .ok symbols := by
  unfold Scan.read Scan.ofPath at hScan ⊢
  dsimp only at hScan ⊢
  rw [← hRead]
  cases hContent : c.disk.read (Path.normal file) with
  | error fault =>
      rw [hContent] at hScan
      cases hScan
  | ok content =>
      rw [hContent] at hScan
      unfold SourceText.symbols SourceText.tokenize at hScan ⊢
      dsimp only at hScan ⊢
      split at hScan
      · exact hScan
      · cases hScan

/- What a scan of one name reports, a scan of another does too. -/
theorem reports_of_read_eq
    {source other : Source}
    {symbol : String}
    (hRead :
      c.disk.read (Path.normal source.path) =
        c.disk.read (Path.normal other.path))
    (hAlone : source.alone = false)
    (hReports : Reports c source symbol) :
    Reports c other symbol := by
  rcases hReports with ⟨result, hReported, hSymbol⟩
  unfold reported Scan.run at hReported
  rw [hAlone] at hReported
  have hStem (symbols : List String) :
      (Scan.ofPath source.path false).withStem symbols = symbols :=
    rfl
  rw [hStem] at hReported
  cases hScan : (Scan.ofPath source.path false).read c.disk with
  | error error =>
      rw [hScan] at hReported
      dsimp only at hReported
      -- A source that cannot be scanned reports nothing.
      split at hReported
      · cases hReported
      · cases hCheck :
            (Notice.skipped (Scan.ofPath source.path false).path
              error.message).check with
        | error other =>
            simp only [hCheck, bind, Except.bind] at hReported
            cases hReported
        | ok shown =>
            simp only [hCheck, bind, Except.bind, pure,
              Except.pure] at hReported
            cases hReported
            cases hSymbol
  | ok symbols =>
      rw [hScan] at hReported
      cases hReported
      refine ⟨⟨(Scan.ofPath other.path other.alone).withStem symbols,
        []⟩, ?_, ?_⟩
      · unfold reported Scan.run
        rw [read_of_read_eq hRead hScan]
      · exact mem_withStem.mpr (.inl hSymbol)

/-
  One file under two names that are sources ends every rebuild
  from nothing, if the file declares something.
-/
theorem rebuild_fails_of_one_file
    (hTree : c.disk.IsTree)
    (hSound : c.disk.IsSound)
    {source other : Source}
    (hSource : source ∈ sourcesOf c)
    (hOther : other ∈ sourcesOf c)
    (hPaths : source.path ≠ other.path)
    (hReal :
      c.disk.resolve source.path = c.disk.resolve other.path)
    {symbol : String}
    (hAlone : source.alone = false)
    (hReports : Reports c source symbol)
    (i : Index)
    (missing : Keyed Int) :
    ∃ error final,
      rebuild c (i.withoutFiles missing) = .error error final := by
  rcases Disk.exists_leadsTo_of_stat
      (Sources.stat_of_mem_ofSettings
        (Sources.firsts_subset hSource)) with
    ⟨place, hPlace⟩
  rcases Disk.exists_leadsTo_of_stat
      (Sources.stat_of_mem_ofSettings
        (Sources.firsts_subset hOther)) with
    ⟨goal, hGoal⟩
  rw [hPlace.resolve_eq hTree hSound, hGoal.resolve_eq hTree hSound,
    Except.ok.injEq] at hReal
  have hSame := Disk.textOf_inj (hPlace.isName hSound)
    (hGoal.isName hSound) hReal
  rw [← hSame] at hGoal
  have hTwice :=
    reports_of_read_eq (hPlace.read_normal_eq hGoal) hAlone hReports
  cases hRebuild : rebuild c (i.withoutFiles missing) with
  | error error final => exact ⟨error, final, rfl⟩
  | ok value final =>
      have hClean :=
        (rebuild_isOk_iff_isClean c i missing).mp ⟨final, hRebuild⟩
      exact absurd hTwice
        (hClean.apart source hSource other hOther hPaths symbol
          hReports)

/- A conflict is one of two sources with two names. -/
theorem sources_of_conflict
    {i final : Index}
    {missing : Keyed Int}
    {symbol first second : String}
    (hRebuild :
      rebuild c (i.withoutFiles missing) =
        .error (.ambiguous symbol first second) final) :
    first ≠ second ∧
    (∃ source ∈ sourcesOf c,
      source.path = first ∧ Reports c source symbol) ∧
    ∃ source ∈ sourcesOf c,
      source.path = second ∧ Reports c source symbol := by
  have hEmpty (source : Source) :
      found c (Memory.ofSnapshot (i.withoutFiles missing).known)
          source =
        reported c source :=
    found_of_empty c missing source
  rcases Work.forM_cases
      (takeIn c (Memory.ofSnapshot (i.withoutFiles missing).known))
      (sourcesOf c) (i.withoutFiles missing).begun with
    ⟨last, hLoop⟩ |
      ⟨before, source, after, middle, error, last, hSplit, hBefore,
        hSource, hLoop⟩
  · -- The sources are cut short, but not by a conflict.
    rw [rebuild_of_ok hLoop] at hRebuild
    split at hRebuild
    · next error hFailure =>
        cases hRebuild
        exact absurd rfl
          (Sources.spares_ofSettings c.disk c.settings _ hFailure)
    · cases hRebuild
  · rw [rebuild_of_error hLoop] at hRebuild
    cases hRebuild
    rcases takeIn_eq_error hSource with
      ⟨hFound, -⟩ |
        ⟨result, early, other, late, previous, hFound, hSymbols, -,
          hPrevious, hError, -⟩
    · rw [hEmpty] at hFound
      exact absurd rfl (Scan.peaceful_run _ _ _ _ hFound)
    · cases hError
      rw [hEmpty] at hFound
      rcases (symbols_forM_takeIn hBefore symbol previous).mp
          hPrevious with
        hOld | ⟨earlier, hEarlier, hFinds, rfl⟩
      · cases hOld
      · rcases hFinds with ⟨found, hFoundEarlier, hMem⟩
        rw [hEmpty] at hFoundEarlier
        have hApart : (sourcesOf c).Pairwise (·.path ≠ ·.path) :=
          Sources.pairwise_firsts [] _
        rw [hSplit, List.pairwise_append] at hApart
        refine ⟨hApart.2.2 earlier hEarlier source
            List.mem_cons_self,
          ⟨earlier, ?_, rfl, found, hFoundEarlier, hMem⟩,
          source, ?_, rfl, result, hFound, ?_⟩
        · rw [hSplit]
          exact List.mem_append_left _ hEarlier
        · rw [hSplit]
          simp
        · rw [hSymbols]
          simp

/-
  From nothing a rebuild ends in a conflict if two names that
  are sources report one symbol, the names being told apart as
  texts. If both lead to one file, then one of them has no
  direct way to it. In turn a file that declares something ends
  every rebuild if two names of it are sources.
-/
theorem conflicts_are_between_names
    (hTree : c.disk.IsTree)
    (hSound : c.disk.IsSound) :
    (∀ (i : Index) missing symbol first second final,
      rebuild c (i.withoutFiles missing) =
          .error (.ambiguous symbol first second) final →
        first ≠ second ∧
        (∃ source ∈ sourcesOf c,
          source.path = first ∧ Reports c source symbol) ∧
        (∃ source ∈ sourcesOf c,
          source.path = second ∧ Reports c source symbol) ∧
        (c.disk.resolve first = c.disk.resolve second →
          ∃ path,
            (path = first ∨ path = second) ∧
            ∀ start trail,
              Sources.Reaches c.disk c.settings start trail path →
                ¬ Search.IsDirect c.disk start trail)) ∧
    ∀ source ∈ sourcesOf c, ∀ other ∈ sourcesOf c,
      source.path ≠ other.path →
      c.disk.resolve source.path = c.disk.resolve other.path →
      source.alone = false →
      (∃ symbol, Reports c source symbol) →
        ∀ (i : Index) missing,
          ∃ error final,
            rebuild c (i.withoutFiles missing) =
              .error error final := by
  refine ⟨?_, ?_⟩
  · intro i missing symbol first second final hRebuild
    rcases sources_of_conflict hRebuild with
      ⟨hNames, hFirst, hSecond⟩
    refine ⟨hNames, hFirst, hSecond, fun hReal => ?_⟩
    by_cases hDirect :
        ∃ start trail,
          Sources.Reaches c.disk c.settings start trail first ∧
          Search.IsDirect c.disk start trail
    · refine ⟨second, .inr rfl, fun start trail hReaches hToo => ?_⟩
      rcases hDirect with ⟨from?, along, hWay, hStraight⟩
      rw [hWay.resolve_eq_of_isDirect hTree hSound hStraight,
        hReaches.resolve_eq_of_isDirect hTree hSound hToo] at hReal
      cases hReal
      exact hNames rfl
    · exact ⟨first, .inl rfl, fun start trail hReaches hStraight =>
        hDirect ⟨start, trail, hReaches, hStraight⟩⟩
  · rintro source hSource other hOther hPaths hReal hAlone
      ⟨symbol, hReports⟩ i missing
    exact rebuild_fails_of_one_file hTree hSound hSource hOther
      hPaths hReal hAlone hReports i missing

/- A file that is a root, and a library with a link to it. -/
def twoNames : Context where
  disk :=
    { nodes := [
        (["w"], .newDirectory),
        (["w", "a.php"], .file "<?php class X {}".toUTF8 5),
        (["w", "lib"], .newDirectory),
        (["w", "lib", "b.php"], .link "../a.php")]
      cwd := ["w"] }
  settings :=
    { projectDir := "/w"
      roots := ["a.php", "lib"] }
  strict := true

theorem twoNames_rebuild :
    twoNames.disk.IsTree ∧
    twoNames.disk.IsSound ∧
    (match rebuild twoNames (({} : Index).withoutFiles .empty) with
      | .error error _ => some error
      | .ok _ _ => none) =
        some (.ambiguous "X" "/w/a.php" "/w/lib/b.php") ∧
    twoNames.disk.resolve "/w/a.php" = .ok "/w/a.php" ∧
    twoNames.disk.resolve "/w/lib/b.php" = .ok "/w/a.php" := by
  exact ⟨by decide +kernel, ⟨by decide, by decide⟩,
    by decide +kernel, by decide +kernel, by decide +kernel⟩

/- The file is in conflict with the link to it. -/
theorem link_conflicts_with_its_file :
    ∃ final,
      rebuild twoNames (({} : Index).withoutFiles .empty) =
        .error (.ambiguous "X" "/w/a.php" "/w/lib/b.php") final ∧
      twoNames.disk.resolve "/w/a.php" =
        twoNames.disk.resolve "/w/lib/b.php" ∧
      ∃ path,
        (path = "/w/a.php" ∨ path = "/w/lib/b.php") ∧
        ∀ start trail,
          Sources.Reaches twoNames.disk twoNames.settings start
              trail path →
            ¬ Search.IsDirect twoNames.disk start trail := by
  rcases twoNames_rebuild with
    ⟨hTree, hSound, hError, hFirst, hSecond⟩
  cases hRebuild :
      rebuild twoNames (({} : Index).withoutFiles .empty) with
  | ok value final =>
      rw [hRebuild] at hError
      cases hError
  | error error final =>
      rw [hRebuild] at hError
      cases hError
      have hSame := hFirst.trans hSecond.symm
      rcases (conflicts_are_between_names hTree hSound).1 _ _ _ _ _
          _ hRebuild with
        ⟨-, -, -, hWays⟩
      exact ⟨final, rfl, hSame, hWays hSame⟩

end Index

end SymbolAtlas
