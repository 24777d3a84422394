import SymbolAtlas.Proofs.Index.Reaching
import SymbolAtlas.Proofs.Index.Sessions

/-
  Look-ups of declarations that have moved.

  A look-up of a symbol whose file has changed updates that file
  and does not rebuild. So a declaration that has moved is found
  at once if and only if a chain of changed files leads from the
  recorded file to the new one.

  Key theorems:
    * `Index.Updated.refreshed`
    * `Index.symbols_of_update`, `Index.symbols_of_rebuild`
    * `Index.lookup_finds_along_chain`
-/

------------------------------------------------------------
-- Where Updates Lead
------------------------------------------------------------

namespace SymbolAtlas

namespace Index

variable {c : Context} {i : Index}

/- Every file that an update leads to is refreshed by it. -/
theorem Updated.refreshed
    {start file : String}
    {final : Index}
    (hUpdated : Updated c i.known start start i final)
    (hLeads : LeadsTo c i.known start file) :
    Refreshed c final.known file := by
  induction hLeads with
  | refl => exact hUpdated.file
  | @tail middle other _ hDisplaces ih =>
      rcases hDisplaces with
        ⟨source, hSource, hPath, symbol, entry, hReports, hEntry,
          hDrifted, hFile⟩
      rcases hUpdated.others other with hSame | hRefreshed
      · -- The symbol cannot be in both files.
        obtain ⟨_, time⟩ := entry
        dsimp only at hFile
        subst hFile
        have hStill := (hSame.entries symbol time).mp hEntry
        have hNow :=
          (ih symbol source.mtime).mpr
            ⟨source, hSource, hPath, rfl, hReports⟩
        rw [hNow, Option.some.injEq, ← hPath] at hStill
        rw [← hStill] at hDrifted
        have hUndrifted := hasDrifted_entryOf hSource
        rw [show entryOf source = ⟨source.path, source.mtime⟩
          from rfl, hDrifted] at hUndrifted
        cases hUndrifted
      · exact hRefreshed

section Target

variable (hClean : IsClean c)
variable (hComplete : IsComplete c i.known)
variable (hTracks : TracksSources c i.known)
variable {target : Source} {symbol : String}
variable (hTarget : target ∈ sourcesOf c)
variable (hReports : Reports c target symbol)

include hClean hComplete hTracks hTarget hReports

/-
  An update of the changed file that a symbol was in succeeds.
  It finds the source that reports the symbol now if it leads
  there, and otherwise leaves the symbol without an entry.
-/
theorem symbols_of_update
    {entry : Entry}
    (hEntry : i.known.symbols.get? symbol = some entry)
    (hDrifted : hasDrifted c.disk entry = true) :
    ∃ final,
      update c entry.file i = .ok () final ∧
      (LeadsTo c i.known entry.file target.path →
        final.known.symbols.get? symbol =
          some (entryOf target)) ∧
      (¬ LeadsTo c i.known entry.file target.path →
        final.known.symbols.get? symbol = none) := by
  have hCount :
      driftedCount c.disk (i.forgotten entry.file).known <
        i.known.symbols.size + 1 := by
    have hForgotten :=
      driftedCount_forgotten_le c.disk i entry.file
    have hSize := driftedCount_le_size c.disk i.known
    omega
  rcases updateWithin_reaches hClean hComplete hTracks
      (i.known.symbols.size + 1) entry.file i
      (fun _ _ hOld => Or.inl hOld) .refl
      (hTracks symbol entry hEntry) hCount with
    ⟨final, hUpdate, hUpdated⟩
  refine ⟨final, hUpdate, ?_, ?_⟩
  · intro hLeads
    exact (hUpdated.refreshed hLeads symbol target.mtime).mpr
      ⟨target, hTarget, rfl, rfl, hReports⟩
  · intro hLeads
    rw [Option.eq_none_iff_forall_ne_some]
    intro other hOther
    rcases hUpdated.partway symbol other hOther with
      hOld | ⟨source, hSource, hReportsToo, -, hReached⟩
    · rw [hEntry, Option.some.injEq] at hOld
      subst hOld
      rw [hUpdated.file.not_hasDrifted hOther] at hDrifted
      cases hDrifted
    · rw [hClean.eq_of_reports hSource hTarget hReportsToo
        hReports] at hReached
      exact hLeads hReached

omit hTracks in
/- A rebuild finds the source that reports the symbol. -/
theorem symbols_of_rebuild :
    ∃ final,
      rebuild c i = .ok () final ∧
      final.known.symbols.get? symbol =
        some (entryOf target) := by
  rcases (rebuild_isOk_iff_isClean c i .empty).mpr hClean with
    ⟨full, hFull⟩
  have hWhole := (rebuild_isOk_iff.mp ⟨full, hFull⟩).2
  rcases exists_loop_of_rebuild hFull with
    ⟨middle, hLoop, hKnown⟩
  have hAlike :
      Alike
        ((sourcesOf c).forM
          (takeIn c (Memory.ofSnapshot i.known)) i.begun)
        ((sourcesOf c).forM
          (takeIn c (Memory.ofSnapshot {}))
            (i.withoutFiles .empty).begun) := by
    apply forM_takeIn_alike
    · intro source hSource
      exact foundAlike_of_isComplete hComplete hSource
    · exact ⟨fun _ => rfl, fun _ => rfl⟩
  rw [show (sourcesOf c).forM (takeIn c (Memory.ofSnapshot {}))
    (i.withoutFiles .empty).begun = _ from hLoop] at hAlike
  cases hRun :
      (sourcesOf c).forM
        (takeIn c (Memory.ofSnapshot i.known)) i.begun with
  | error error final =>
      rw [hRun] at hAlike
      exact hAlike.elim
  | ok value final =>
      rw [hRun] at hAlike
      rw [rebuild_of_ok hRun, hWhole]
      refine ⟨_, rfl, ?_⟩
      rw [hAlike.1 symbol, ← hKnown,
        (known_of_rebuild hFull).1]
      exact ⟨target, hTarget, hReports, rfl⟩

end Target

end Index

end SymbolAtlas

------------------------------------------------------------
-- Look-Ups
------------------------------------------------------------

namespace SymbolAtlas

namespace Index

variable {c : Context} {i : Index}

theorem isLive_of_isFile
    {d : Disk}
    {entry : Entry}
    (hFile : d.isFile entry.file = true) :
    isLive d (some entry) = true :=
  hFile

/- A look-up answers with the file of an entry that is live. -/
theorem lookup_of_found
    {symbol : String}
    {entry : Entry}
    {middle : Index}
    (hSearch : MaySearch c i symbol)
    (hUpToDate :
      bringUpToDate c symbol i = .ok (some entry) middle)
    (hFile : c.disk.isFile entry.file = true) :
    ∃ final,
      lookup c symbol i =
        .ok (some (Path.normal entry.file)) final := by
  rw [lookup_of_maySearch hSearch, Work.bind_of_ok hUpToDate]
  rcases answer_cases (i := middle) hSearch.2 symbol
      ((i.known.missing.get? symbol).getD 0) (some entry) with
    ⟨hGone, -⟩ | ⟨found, final, hFound, -, hAnswer, -⟩
  · rw [isLive_of_isFile hFile] at hGone
    cases hGone
  · cases hFound
    exact ⟨final, hAnswer⟩

/- It answers with none if the symbol has no entry. -/
theorem lookup_of_missed
    {symbol : String}
    {middle : Index}
    (hSearch : MaySearch c i symbol)
    (hUpToDate : bringUpToDate c symbol i = .ok none middle) :
    ∃ final, lookup c symbol i = .ok none final := by
  rw [lookup_of_maySearch hSearch, Work.bind_of_ok hUpToDate]
  rcases answer_cases (i := middle) hSearch.2 symbol
      ((i.known.missing.get? symbol).getD 0) none with
    ⟨-, final, hAnswer, -⟩ | ⟨found, final, hFound, -⟩
  · exact ⟨final, hAnswer⟩
  · cases hFound

section Found

variable (hClean : IsClean c)
variable (hComplete : IsComplete c i.known)
variable (hTracks : TracksSources c i.known)
variable {target : Source} {symbol : String}
variable (hTarget : target ∈ sourcesOf c)
variable (hReports : Reports c target symbol)

include hClean hComplete hTracks hTarget hReports

omit hTracks in
/- A symbol without a live entry is found by a rebuild. -/
theorem lookup_of_not_live
    (hSearch : MaySearch c i symbol)
    (hFirst : i.session.refreshed = false)
    (hLive :
      isLive c.disk (i.known.symbols.get? symbol) = false) :
    ∃ final,
      lookup c symbol i =
        .ok (some (Path.normal target.path)) final := by
  rcases symbols_of_rebuild hClean hComplete hTarget
      hReports with
    ⟨rebuilt, hRebuild, hFound⟩
  have hUpToDate :=
    bringUpToDate_of_rescans ⟨hSearch, hLive, hFirst⟩
  rw [hRebuild] at hUpToDate
  dsimp only at hUpToDate
  rw [hFound] at hUpToDate
  have hLookup := lookup_of_found hSearch hUpToDate
    (isCurrent_of_reports hTarget hReports).isFile
  exact hLookup

variable {entry : Entry}
variable (hEntry : i.known.symbols.get? symbol = some entry)
variable (hFile : c.disk.isFile entry.file = true)

include hEntry hFile

/- An entry that has not drifted is the right one. -/
theorem lookup_of_not_hasDrifted
    (hSearch : MaySearch c i symbol)
    (hUndrifted : hasDrifted c.disk entry = false) :
    entry.file = target.path ∧
    ∃ final,
      lookup c symbol i =
        .ok (some (Path.normal target.path)) final := by
  have hPartway : Partway c i.known entry.file i.known :=
    fun _ _ hOld => Or.inl hOld
  rcases hPartway.reports_of_not_hasDrifted hEntry hComplete
      hTracks hUndrifted with
    ⟨source, hSource, hPath, hReportsToo⟩
  rw [hClean.eq_of_reports hSource hTarget hReportsToo
    hReports] at hPath
  refine ⟨hPath.symm, ?_⟩
  have hUpToDate :
      bringUpToDate c symbol i = .ok (some entry) i := by
    rw [← hEntry]
    apply bringUpToDate_otherwise hSearch
    · rintro ⟨-, hGone, -⟩
      rw [hEntry, isLive_of_isFile hFile] at hGone
      cases hGone
    · rintro other ⟨-, hOther, -, hDrifted⟩
      rw [hEntry, Option.some.injEq] at hOther
      subst hOther
      rw [hUndrifted] at hDrifted
      cases hDrifted
  rw [hPath]
  exact lookup_of_found hSearch hUpToDate hFile

/- A drifted entry is followed as far as its file leads. -/
theorem lookup_of_hasDrifted
    (hSearch : MaySearch c i symbol)
    (hDrifted : hasDrifted c.disk entry = true) :
    (LeadsTo c i.known entry.file target.path →
      ∃ final,
        lookup c symbol i =
          .ok (some (Path.normal target.path)) final) ∧
    (¬ LeadsTo c i.known entry.file target.path →
      ∃ final, lookup c symbol i = .ok none final) := by
  rcases symbols_of_update hClean hComplete hTracks hTarget
      hReports hEntry hDrifted with
    ⟨updated, hUpdate, hFinds, hMisses⟩
  have hUpToDate := bringUpToDate_of_renews
    ⟨hSearch, hEntry, hFile, hDrifted⟩
  rw [hUpdate] at hUpToDate
  dsimp only at hUpToDate
  refine ⟨?_, ?_⟩
  · intro hLeads
    rw [hFinds hLeads] at hUpToDate
    have hLookup := lookup_of_found hSearch hUpToDate
      (isCurrent_of_reports hTarget hReports).isFile
    exact hLookup
  · intro hLeads
    rw [hMisses hLeads] at hUpToDate
    exact lookup_of_missed hSearch hUpToDate

end Found

/-
  If a full rebuild would find the symbol in a file, a look-up
  succeeds. It answers with that file if the symbol has no
  entry, or one whose file is gone, or one whose file leads
  there; and with none, after no walk, if its file is there but
  leads elsewhere.
-/
theorem lookup_finds_along_chain
    {full : Index}
    {symbol : String}
    {target : Entry}
    (hAuto : c.settings.autoRebuild = true)
    (hFew : (i.known.missing.get? symbol).getD 0 < retryLimit)
    (hFirst : i.session.refreshed = false)
    (hComplete : IsComplete c i.known)
    (hTracks : TracksSources c i.known)
    (hFull : (do clear; rebuild c : Work Unit) i = .ok () full)
    (hTarget :
      full.known.symbols.get? symbol = some target) :
    ((∀ entry,
        i.known.symbols.get? symbol = some entry →
        c.disk.isFile entry.file = true →
          LeadsTo c i.known entry.file target.file) →
      ∃ final,
        lookup c symbol i =
          .ok (some (Path.normal target.file)) final) ∧
    ((∃ entry,
        i.known.symbols.get? symbol = some entry ∧
        c.disk.isFile entry.file = true ∧
        ¬ LeadsTo c i.known entry.file target.file) →
      ∃ final,
        lookup c symbol i = .ok none final ∧
        final.session.walks = i.session.walks) := by
  rw [clear_then] at hFull
  have hClean :=
    (rebuild_isOk_iff_isClean c i .empty).mp ⟨full, hFull⟩
  rcases ((known_of_rebuild hFull).1 symbol target).mp hTarget
    with ⟨source, hSource, hReports, rfl⟩
  have hSearch : MaySearch c i symbol := ⟨hFew, hAuto⟩
  refine ⟨?_, ?_⟩
  · intro hLeads
    cases hLive :
        isLive c.disk (i.known.symbols.get? symbol) with
    | false =>
        exact lookup_of_not_live hClean hComplete hSource hReports
          hSearch hFirst hLive
    | true =>
        cases hEntry : i.known.symbols.get? symbol with
        | none =>
            rw [hEntry] at hLive
            cases hLive
        | some entry =>
            rw [hEntry] at hLive
            have hFile : c.disk.isFile entry.file = true := hLive
            cases hDrifted : hasDrifted c.disk entry with
            | false =>
                exact (lookup_of_not_hasDrifted hClean hComplete
                  hTracks hSource hReports hEntry hFile hSearch
                  hDrifted).2
            | true =>
                exact (lookup_of_hasDrifted hClean hComplete
                  hTracks hSource hReports hEntry hFile hSearch
                  hDrifted).1 (hLeads entry hEntry hFile)
  · rintro ⟨entry, hEntry, hFile, hLeads⟩
    cases hDrifted : hasDrifted c.disk entry with
    | false =>
        have hHere :=
          (lookup_of_not_hasDrifted hClean hComplete hTracks
            hSource hReports hEntry hFile hSearch hDrifted).1
        rw [hHere] at hLeads
        exact absurd .refl hLeads
    | true =>
        rcases (lookup_of_hasDrifted hClean hComplete hTracks
            hSource hReports hEntry hFile hSearch
            hDrifted).2 hLeads with
          ⟨final, hLookup⟩
        have hScans :
            i.session.SameScans
              (Work.stateAfter (lookup c symbol i)).session := by
          apply sameScans_lookup
          rintro ⟨-, hGone, -⟩
          rw [hEntry, isLive_of_isFile hFile] at hGone
          cases hGone
        rw [hLookup] at hScans
        exact ⟨final, hLookup, hScans.walks⟩

/- Two roots with two times and contents. -/
def twoRoots (time : Int) (first second : String) : Context where
  disk :=
    { nodes := [
        (["w"], .newDirectory),
        (["w", "a.php"], .file first.toUTF8 time),
        (["w", "b.php"], .file second.toUTF8 time)] }
  settings := { projectDir := "/w", roots := ["a.php", "b.php"] }
  strict := true

/- Both roots have exchanged their symbols. -/
def afterTheMove : Context :=
  twoRoots 7 "<?php class Y {}" "<?php class X {}"

/- What a rebuild has found before. -/
def knownBefore : Index where
  known :=
    { symbols := .ofList [
        ("X", ⟨"/w/a.php", 5⟩),
        ("Y", ⟨"/w/b.php", 5⟩)] }

theorem moved_sources :
    IsComplete afterTheMove knownBefore.known ∧
    TracksSources afterTheMove knownBefore.known ∧
    ⟨"/w/a.php", 7, false⟩ ∈ sourcesOf afterTheMove ∧
    Reports afterTheMove ⟨"/w/a.php", 7, false⟩ "Y" ∧
    knownBefore.known.symbols.get? "X" =
      some ⟨"/w/a.php", 5⟩ ∧
    knownBefore.known.symbols.get? "Y" =
      some ⟨"/w/b.php", 5⟩ ∧
    hasDrifted afterTheMove.disk ⟨"/w/b.php", 5⟩ = true ∧
    (match
        (do clear; rebuild afterTheMove : Work Unit)
          knownBefore with
      | .ok _ full => full.known.symbols.get? "X"
      | .error _ _ => none) = some ⟨"/w/b.php", 7⟩ := by
  decide +kernel

/- Exchanged declarations are found without a rebuild. -/
theorem exchanged_declaration_found :
    IsComplete afterTheMove knownBefore.known ∧
    TracksSources afterTheMove knownBefore.known ∧
    ∃ final,
      lookup afterTheMove "X" knownBefore =
        .ok (some "/w/b.php") final := by
  rcases moved_sources with
    ⟨hComplete, hTracks, hSource, hReports, hFirst, hSecond,
      hDrifted, hTarget⟩
  refine ⟨hComplete, hTracks, ?_⟩
  cases hFull :
      (do clear; rebuild afterTheMove : Work Unit)
        knownBefore with
  | error error full =>
      rw [hFull] at hTarget
      cases hTarget
  | ok value full =>
      rw [hFull] at hTarget
      refine (lookup_finds_along_chain rfl (by decide) rfl
        hComplete hTracks hFull hTarget).1 ?_
      intro entry hEntry _
      rw [hFirst, Option.some.injEq] at hEntry
      rw [← hEntry]
      exact .single ⟨_, hSource, rfl, "Y", _, hReports, hSecond,
        hDrifted, rfl⟩

/- A root that declared nothing gets the symbol of the other. -/
def emptyBefore : Context :=
  twoRoots 5 "<?php class X {}" "<?php"

/-
  A declaration that moves to a file which is not in the way of
  the recorded one is missed, though a rebuild would find it.
-/
theorem moved_declaration_missed :
    ∃ i : Index,
      i.known = (Work.stateAfter (rebuild emptyBefore {})).known ∧
      IsComplete emptyBefore i.known ∧
      IsComplete afterTheMove i.known ∧
      afterTheMove.settings.autoRebuild = true ∧
      i.session.refreshed = false ∧
      i.known.missing.get? "X" = none ∧
      (match
          (do clear; rebuild afterTheMove : Work Unit) i with
        | .ok _ full => full.known.symbols.get? "X"
        | .error _ _ => none) = some ⟨"/w/b.php", 7⟩ ∧
      (match lookup afterTheMove "X" i with
        | .ok answer _ => some answer
        | .error _ _ => none) = some none := by
  refine ⟨{ known :=
    (Work.stateAfter (rebuild emptyBefore {})).known }, ?_⟩
  decide +kernel

end Index

end SymbolAtlas
