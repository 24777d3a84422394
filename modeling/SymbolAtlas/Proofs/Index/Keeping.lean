import SymbolAtlas.Proofs.Index.Calls
import SymbolAtlas.Proofs.Index.Exact
import SymbolAtlas.Proofs.Index.Sessions

/-
  Entries that are still right.

  As long as the file of an entry is a source with the time of
  the entry, only a rebuild does anything to the file. A rebuild
  that succeeds keeps every symbol that the file still declares.

  Key definitions:
    * `Index.StillRight`
    * `Snapshot.AllAt`
  Key theorems:
    * `Index.maps_of_rebuild`, `Index.allAt_rebuild`
    * `Index.sameFile_lookup_of_not_rescans`
-/

namespace SymbolAtlas

namespace Snapshot

/- All symbols of the file of the entry carry its time. -/
def AllAt (k : Snapshot) (entry : Entry) : Prop :=
  ∀ symbol time,
    k.symbols.get? symbol = some ⟨entry.file, time⟩ →
      time = entry.mtime

variable {k l : Snapshot} {entry : Entry}

theorem AllAt.of_sameFile
    (hAllAt : k.AllAt entry)
    (hSame : k.SameFile l entry.file) :
    l.AllAt entry := by
  intro symbol time hSymbol
  apply hAllAt symbol time
  rw [hSame.entries]
  exact hSymbol

theorem allAt_of_has
    {symbols : List String}
    {empty : Option Int}
    (hHas : k.Has entry.file entry.mtime symbols empty) :
    k.AllAt entry := by
  intro symbol time hSymbol
  exact ((hHas.entries symbol time).mp hSymbol).2

theorem allAt_of_isConsistent
    {symbol : String}
    (hConsistent : k.IsConsistent)
    (hEntry : k.symbols.get? symbol = some entry) :
    k.AllAt entry := by
  intro other time hOther
  exact hConsistent.oneTime other symbol entry.file time
    entry.mtime hOther hEntry

end Snapshot

namespace Index

/-
  The file of the entry is a source with the time of the entry,
  and a scan of it reports the symbol.
-/
def StillRight
    (c : Context)
    (symbol : String)
    (entry : Entry) : Prop :=
  ∃ source ∈ sourcesOf c,
    entryOf source = entry ∧ Reports c source symbol

instance
    (c : Context)
    (symbol : String)
    (entry : Entry) :
    Decidable (StillRight c symbol entry) :=
  inferInstanceAs (Decidable (∃ source ∈ sourcesOf c, _))

variable {c : Context} {i : Index} {symbol : String}
variable {entry : Entry}

theorem StillRight.stat_eq
    (hRight : StillRight c symbol entry) :
    c.disk.stat entry.file = .ok ⟨false, entry.mtime⟩ := by
  rcases hRight with ⟨source, hSource, rfl, -⟩
  exact Sources.stat_of_mem_ofSettings
    (Sources.firsts_subset hSource)

/- A source of the same path is the source of the entry. -/
theorem StillRight.entryOf_eq
    (hRight : StillRight c symbol entry)
    {source : Source}
    (hSource : source ∈ sourcesOf c)
    (hPath : source.path = entry.file) :
    entryOf source = entry := by
  rcases hRight with ⟨other, hOther, rfl, -⟩
  rw [Sources.eq_of_mem_firsts hSource hOther hPath]

/-
  A successful rebuild knows the symbol, if it was known before
  or if nothing was.
-/
theorem maps_of_rebuild
    {final : Index}
    (hRight : StillRight c symbol entry)
    (hKnown :
      i.known.Maps entry.file symbol ∨
      ∃ missing, i.known = ⟨.empty, missing, .empty⟩)
    (hRebuild : rebuild c i = .ok () final) :
    final.known.Maps entry.file symbol := by
  rcases hRight with
    ⟨source, hSource, rfl, reportedNow, hReported, hReports⟩
  rcases exists_loop_of_rebuild hRebuild with
    ⟨middle, hLoop, hFinal⟩
  rw [hFinal]
  rcases has_of_mem (fun _ hOther => hOther)
      (Sources.pairwise_firsts [] _) hLoop hSource with
    ⟨result, hFound, hHas⟩
  rw [entryOf, hHas.maps_iff]
  have hScanned :
      found c (Memory.ofSnapshot i.known) source =
          reported c source →
        symbol ∈ result.symbols := by
    intro hSame
    rw [hSame, hReported] at hFound
    cases hFound
    exact hReports
  rcases hKnown with hMaps | ⟨missing, hNothing⟩
  · unfold found at hFound hScanned
    cases hRemembered :
        (Memory.ofSnapshot i.known).symbols? source with
    | none =>
        rw [hRemembered] at hScanned
        exact hScanned rfl
    | some symbols =>
        rw [hRemembered] at hFound
        cases hFound
        unfold Memory.symbols? at hRemembered
        split at hRemembered
        · cases hRemembered
          rw [Memory.symbols_ofSnapshot, Memory.mem_symbolsOf_iff]
          exact hMaps
        · cases hRemembered
  · apply hScanned
    rw [hNothing]
    exact found_of_empty c missing source

/- A rebuild gives the file its time, whatever the outcome. -/
theorem allAt_rebuild
    (hRight : StillRight c symbol entry)
    (i : Index) :
    (Work.stateAfter (rebuild c i)).known.AllAt entry := by
  have hAt :
      ∀ {source symbols empty},
        source ∈ sourcesOf c → source.path = entry.file →
        (Work.stateAfter (rebuild c i)).known.Has source.path
          source.mtime symbols empty →
        (Work.stateAfter (rebuild c i)).known.AllAt entry := by
    intro source symbols empty hSource hPath hHas
    have hEntry := hRight.entryOf_eq hSource hPath
    rw [← hEntry]
    exact Snapshot.allAt_of_has hHas
  rcases asFound_or_stopsAt c i entry.file with
    (hNone | ⟨source, hSource, hPath, result, -, hHas⟩) |
    ⟨source, hPath, hStops⟩
  · intro name time hName
    have hMem := (hNone.entries name time).mp hName
    exact absurd hMem.1 List.not_mem_nil
  · exact hAt hSource hPath hHas
  · rcases hStops.views.1 with hNone |
      ⟨result, before, name, after, -, -, hHas⟩
    · exact hAt hStops.mem hPath hNone
    · exact hAt hStops.mem hPath hHas

/-
  A look-up that does not rebuild does nothing to a file whose
  entries have not drifted.
-/
theorem sameFile_lookup_of_not_rescans
    {name : String}
    (hRight : StillRight c symbol entry)
    (hAllAt : i.known.AllAt entry)
    (hRescans : ¬ Rescans c i name) :
    i.known.SameFile (Work.stateAfter (lookup c name i)).known
      entry.file := by
  have hStat := hRight.stat_eq
  have hUndrifted : Undrifted c.disk i.known entry.file := by
    intro other time hOther
    rw [hAllAt other time hOther]
    simp [Disk.mtime?, hStat, Except.toOption]
  by_cases hRenews : ∃ other, Renews c i name other
  · rcases hRenews with ⟨other, hRenews⟩
    have hFile : entry.file ≠ other.file :=
      hUndrifted.ne_of_hasDrifted hRenews.2.1 hRenews.2.2.2
    have hUpdate :
        i.known.SameFile
          (Work.stateAfter (update c other.file i)).known
          entry.file :=
      sameFile_updateWithin hFile hUndrifted
    exact hUpdate.trans (lookup_of_renews hRenews entry.file)
  · by_cases hDrops : ∃ other, Drops c i name other
    · rcases hDrops with ⟨other, hDrops⟩
      apply sameFile_of_drops hDrops
      intro hFile
      have hGone := hDrops.2.2.1
      rw [← hFile] at hGone
      simp [Disk.isFile, hStat, Except.toOption] at hGone
    · exact lookup_otherwise hRescans
        (fun other hOther => hRenews ⟨other, hOther⟩)
        (fun other hOther => hDrops ⟨other, hOther⟩) entry.file

end Index

end SymbolAtlas
