import SymbolAtlas.Proofs.Index.Completeness
import SymbolAtlas.Proofs.Index.Exact
import SymbolAtlas.Proofs.Index.Settling
import SymbolAtlas.Proofs.Search.Twins

/-
  Sources on disks that differ in one directory.

  If no source lies in the directory, the disks have the same
  sources, at the same times, and their lists are both whole or
  both cut short. What is banned may differ in the directory, but
  nothing that is banned there could be a source. So a rebuild
  from nothing knows the same on both disks.

  Key definitions:
    * `Sources.AreOutside`
  Key theorems:
    * `Sources.isAllowed_of_twins`
    * `Sources.ofRoot_of_twins`
    * `Index.isWhole_of_twins`
    * `Index.mem_sourcesOf_of_twins`
    * `Index.rebuild_of_twins`
-/

------------------------------------------------------------
-- The Same Searches
------------------------------------------------------------

namespace SymbolAtlas

theorem Search.Trace.failure_map
    {ι κ : Type}
    (f : ι → κ)
    (trace : Trace ι) :
    (trace.map f).failure = trace.failure :=
  rfl

namespace Query

variable {d : Disk} {q : Query}

/- Walkers whose tests agree on what is shared agree. -/
theorem agreesWith_guarded
    {place : Place}
    {test other : Record → Bool}
    (hTests :
      ∀ record,
        d.Shares place record.path → other record = test record) :
    (q.guarded test).walker.AgreesWith d place
      (q.guarded other).walker where
  content := rfl
  descent := by
    simp [walker, guarded, descentFilter, filter]
  maxDepth := rfl
  ignoreUnreadable := rfl
  answer := fun record hShares index => by
    rw [answer_guarded, answer_guarded, hTests record hShares]

/- A further test does not change what a query asks for. -/
theorem plan_guarded
    (test : Record → Bool)
    (d : Disk) :
    (q.guarded test).plan d = q.plan d :=
  rfl

/- A search is whole if it can be planned and its walks are. -/
theorem failure_run_eq_none_iff
    (hAppended : q.appended = []) :
    (q.run d).failure = none ↔
      ∃ plan,
        q.plan d = .ok plan ∧
        ∀ entry ∈ plan.entries,
          (q.walker.walk d entry.1 entry.2).failure = none := by
  unfold run
  rw [hAppended]
  cases hPlan : q.plan d with
  | error error =>
      constructor
      · intro hNone
        cases hNone
      · rintro ⟨plan, hOther, -⟩
        cases hOther
  | ok plan =>
      dsimp only
      rw [Search.Trace.failure_append_eq_none_iff]
      have hWalks :
          (q.walkPlan d plan).failure = none ↔
            ∀ entry ∈ plan.entries,
              (q.walker.walk d entry.1 entry.2).failure =
                none := by
        unfold walkPlan
        rw [Search.Trace.failure_map,
          Search.Trace.failure_concat_eq_none_iff,
          List.forall_mem_map]
      rw [hWalks]
      constructor
      · rintro ⟨hAll, -⟩
        exact ⟨plan, rfl, hAll⟩
      · rintro ⟨other, hOther, hAll⟩
        cases hOther
        exact ⟨hAll, rfl⟩

/- A search that is whole finds all that its walks do. -/
theorem mem_run_of_walk
    (hAppended : q.appended = [])
    {plan : Search.Plan}
    (hPlan : q.plan d = .ok plan)
    (hWhole : (q.run d).failure = none)
    {base : String}
    {goals : List Search.Goal}
    (hBase : (base, goals) ∈ plan.entries)
    {record : Record}
    (hRecord : record ∈ (q.walker.walk d base goals).records) :
    record ∈ (q.run d).records := by
  rcases (failure_run_eq_none_iff hAppended).mp hWhole with
    ⟨other, hOther, hWalks⟩
  rw [hPlan] at hOther
  cases hOther
  have hRun :
      q.run d = q.walkPlan d plan ++ Search.Trace.empty := by
    unfold run
    rw [hPlan, hAppended]
    rfl
  have hPlanned :
      record ∈ (q.walkPlan d plan).records := by
    unfold walkPlan
    rw [Search.Trace.records_map, Search.Trace.records_concat
      (List.forall_mem_map.mpr hWalks), List.flatMap_map,
      List.mem_flatMap]
    exact ⟨(base, goals), hBase, hRecord⟩
  have hNone : (q.walkPlan d plan).failure = none := by
    rw [hRun, Search.Trace.failure_append_eq_none_iff] at hWhole
    exact hWhole.1
  rw [hRun, Search.Trace.records_append _ hNone]
  exact List.mem_append_left _ hPlanned

end Query

namespace Sources

variable {place : Place} {d e : Disk} {s : Settings}

/- Settings lead to the same real paths. -/
theorem resolvePath_of_twins
    (hTwins : Disk.Twins place d e)
    (path : String) :
    s.resolvePath e path = s.resolvePath d path :=
  s.resolvePath_of_sameLinks hTwins.links
    hTwins.toSameOutside.sameWays path

/- What stands somewhere exists at its real path. -/
theorem exists?_textOf
    (hTree : d.IsTree)
    (hSound : d.IsSound)
    {path : String}
    {goal : Place}
    (hLeads : d.LeadsTo path goal) :
    d.exists? (Disk.textOf goal) = true := by
  rcases hLeads with ⟨node, hLocate, hLink⟩
  have hNode : some node = d.node? goal :=
    Disk.node_of_locate hLocate
  have hText :=
    Disk.locate_textOf hTree hSound hNode.symm hLink
  unfold Disk.exists? Disk.stat
  rw [hText]
  cases node with
  | file content mtime => rfl
  | dir mtime => rfl
  | link target => cases hLink

/- Both disks allow the same, of what they share. -/
theorem isAllowed_of_twins
    (hTwins : Disk.Twins place d e)
    {paths banned others : List String}
    (hBanned : existing d s paths = .ok banned)
    (hOthers : existing e s paths = .ok others)
    {record : Record}
    (hShares : d.Shares place record.path) :
    isAllowed e others record = isAllowed d banned record := by
  rcases hShares with ⟨stat, hStat, hSeen⟩
  have hOther := hTwins.toSameOutside.stat_eq hStat hSeen
  rcases Disk.exists_leadsTo_of_stat hStat with ⟨goal, hLeads⟩
  rcases Disk.exists_leadsTo_of_stat hOther with
    ⟨another, hLeadsToo⟩
  -- The path leads to one place on both disks.
  have hGoal : another = goal := by
    rcases hLeads with ⟨node, hLocate, -⟩
    rcases hLeadsToo with ⟨nodeToo, hLocateToo, -⟩
    have hSame := hTwins.toSameOutside.locate_eq hLocate
    rw [hLocateToo, Except.ok.injEq] at hSame
    exact congrArg Disk.Found.place hSame
  subst hGoal
  have hContains :
      others.contains (Disk.textOf another) =
        banned.contains (Disk.textOf another) := by
    rw [Bool.eq_iff_iff, List.contains_iff_mem,
      List.contains_iff_mem, mem_existing_iff hBanned,
      mem_existing_iff hOthers,
      exists?_textOf hTwins.tree hTwins.sound hLeads,
      exists?_textOf hTwins.treeToo hTwins.soundToo hLeadsToo]
    simp only [resolvePath_of_twins hTwins]
  unfold isAllowed
  rw [hLeads.resolve_eq hTwins.tree hTwins.sound,
    hLeadsToo.resolve_eq hTwins.treeToo hTwins.soundToo]
  dsimp only
  rw [hContains]

/- The searches of a root have one plan and agree. -/
theorem queryOf_of_twins
    (hTwins : Disk.Twins place d e)
    {root directory : String}
    (hDirectory : s.resolvePath d root = .ok directory)
    {q : Query}
    (hQuery : queryOf d s directory = .ok q) :
    ∃ other,
      queryOf e s directory = .ok other ∧
      other.plan e = q.plan d ∧
      q.walker.AgreesWith d place other.walker := by
  have hLocation := (queryOf_shape hQuery).2.1
  rcases queryOf_eq_ok_iff.mp hQuery with
    ⟨banned, plain, hBanned, hPlain, rfl⟩
  have hExisting :
      ∃ others,
        existing e s (s.ignore ++ s.exclude) = .ok others := by
    rw [exists_existing_iff]
    simp only [resolvePath_of_twins hTwins]
    exact exists_existing_iff.mp ⟨banned, hBanned⟩
  rcases hExisting with ⟨others, hOthers⟩
  refine ⟨plain.guarded (isAllowed e others),
    queryOf_eq_ok_iff.mpr ⟨others, plain, hOthers, hPlain, rfl⟩,
    ?_, Query.agreesWith_guarded fun record hShares =>
      isAllowed_of_twins hTwins hBanned hOthers hShares⟩
  rcases hLocation with ⟨location, hLocation, hOne⟩
  change plain.locations = [location] at hOne
  rw [Query.plan_guarded, Query.plan_guarded]
  unfold Query.plan
  rw [hOne]
  apply Search.plan_of_twins hTwins (List.cons_ne_nil _ _)
  intro path hPath
  rw [List.mem_singleton] at hPath
  rw [hPath]
  exact Path.isRooted_location
    (Settings.isRooted_of_resolvePath hDirectory) (by decide)
    hLocation

/-
  A search of a root that is whole on one disk is whole on the
  other and finds there what the disks share.
-/
theorem run_of_twins
    (hTwins : Disk.Twins place d e)
    {root directory : String}
    (hDirectory : s.resolvePath d root = .ok directory)
    {q : Query}
    (hQuery : queryOf d s directory = .ok q)
    (hWhole : (q.run d).failure = none) :
    ∃ other,
      queryOf e s directory = .ok other ∧
      (other.run e).failure = none ∧
      ∀ record ∈ (q.run d).records,
        d.Shares place record.path →
          record ∈ (other.run e).records := by
  rcases queryOf_of_twins hTwins hDirectory hQuery with
    ⟨other, hOther, hSamePlan, hAgrees⟩
  have hAppended := (queryOf_shape hQuery).2.2
  have hAppendedToo := (queryOf_shape hOther).2.2
  rcases (Query.failure_run_eq_none_iff hAppended).mp hWhole with
    ⟨plan, hPlan, hWalks⟩
  have hPlanToo : other.plan e = .ok plan :=
    hSamePlan.trans hPlan
  have hForFiles := isForFiles_of_queryOf hDirectory hQuery hPlan
  have hRooted {base : String} {goals : List Search.Goal}
      (hBase : (base, goals) ∈ plan.entries) :
      Path.isRooted base = true :=
    (hForFiles _ _ (Keyed.get?_eq_some_iff.mpr hBase)).1
  have hWholeToo : (other.run e).failure = none := by
    rw [Query.failure_run_eq_none_iff hAppendedToo]
    refine ⟨plan, hPlanToo, ?_⟩
    rintro ⟨base, goals⟩ hBase
    exact Search.Walker.failure_walk_of_twins hTwins hAgrees
      (hRooted hBase) (hWalks (base, goals) hBase)
  refine ⟨other, hOther, hWholeToo, ?_⟩
  intro record hRecord hShares
  rcases Query.exists_walk_of_mem_run hAppended hRecord with
    ⟨same, base, goals, hSame, hBase, hWalked⟩
  rw [hPlan, Except.ok.injEq] at hSame
  subst hSame
  exact Query.mem_run_of_walk hAppendedToo hPlanToo hWholeToo hBase
    (Search.Walker.mem_walk_of_twins hTwins hAgrees
      (hRooted hBase) (hWalks (base, goals) hBase) hWalked hShares)

end Sources

end SymbolAtlas

------------------------------------------------------------
-- The Same Sources
------------------------------------------------------------

namespace SymbolAtlas

namespace Sources

/- No source lies in the directory at the place. -/
def AreOutside
    (d : Disk)
    (place : Place)
    (s : Settings) : Prop :=
  ∀ source ∈ (ofSettings d s).items,
    d.IsOutside place source.path

variable {place : Place} {d e : Disk} {s : Settings}

/- A list that is whole holds what its parts do. -/
theorem mem_ofSettings_of_root
    (hWhole : (ofSettings d s).failure = none)
    {root : String}
    (hRoot : root ∈ s.roots)
    {source : Source}
    (hSource : source ∈ (ofRoot d s root).items) :
    source ∈ (ofSettings d s).items := by
  unfold ofSettings at hWhole ⊢
  rw [failure_append_eq_none_iff, failure_concat_eq_none_iff]
    at hWhole
  rw [items_append _ (failure_concat_eq_none_iff.mpr hWhole.1),
    items_concat hWhole.1, List.flatMap_map]
  exact List.mem_append_left _
    (List.mem_flatMap.mpr ⟨root, hRoot, hSource⟩)

theorem mem_ofSettings_of_file
    (hWhole : (ofSettings d s).failure = none)
    {file : String}
    (hFile : file ∈ s.files)
    {source : Source}
    (hSource : source ∈ (ofFile d s file).items) :
    source ∈ (ofSettings d s).items := by
  unfold ofSettings at hWhole ⊢
  rw [failure_append_eq_none_iff] at hWhole
  rw [items_append _ hWhole.1,
    items_concat (failure_concat_eq_none_iff.mp hWhole.2),
    List.flatMap_map]
  exact List.mem_append_right _
    (List.mem_flatMap.mpr ⟨file, hFile, hSource⟩)

/- A root that is dealt with is on both disks. -/
theorem ofRoot_of_twins
    (hTwins : Disk.Twins place d e)
    {root : String}
    (hWhole : (ofRoot d s root).failure = none)
    (hOutside :
      ∀ source ∈ (ofRoot d s root).items,
        d.IsOutside place source.path) :
    (ofRoot e s root).failure = none ∧
    ∀ source ∈ (ofRoot d s root).items,
      source ∈ (ofRoot e s root).items := by
  have hStats (source : Source)
      (hSource : source ∈ (ofRoot d s root).items) :=
    (stat_of_mem_ofRoot hSource).1
  rw [ofRoot_eq] at hWhole hOutside hStats ⊢
  rw [ofRoot_eq, resolvePath_of_twins hTwins]
  cases hPath : s.resolvePath d root with
  | error error =>
      rw [hPath] at hWhole
      cases hWhole
  | ok path =>
      rw [hPath] at hWhole hOutside hStats
      dsimp only at hWhole hOutside hStats ⊢
      cases hStat : d.stat path with
      | error fault =>
          rw [hStat] at hWhole
          cases hWhole
      | ok stat =>
          rw [hStat] at hWhole hOutside hStats
          dsimp only at hWhole hOutside hStats ⊢
          by_cases hDirectory : stat.isDirectory = true
          · rw [if_pos hDirectory] at hWhole hOutside hStats ⊢
            rw [hTwins.toSameOutside.stat_eq hStat
              (.inl hDirectory)]
            dsimp only
            rw [if_pos hDirectory]
            cases hQuery : queryOf d s path with
            | error error =>
                rw [hQuery] at hWhole
                cases hWhole
            | ok q =>
                rw [hQuery] at hWhole hOutside hStats
                rcases run_of_twins hTwins hPath hQuery hWhole with
                  ⟨other, hOther, hWholeToo, hFound⟩
                rw [hOther]
                refine ⟨hWholeToo, ?_⟩
                intro source hSource
                rcases List.mem_map.mp hSource with
                  ⟨record, hRecord, rfl⟩
                refine List.mem_map.mpr
                  ⟨record, hFound record hRecord ?_, rfl⟩
                exact ⟨_, hStats _ hSource,
                  .inr (hOutside _ hSource)⟩
          · rw [if_neg hDirectory] at hOutside ⊢
            rw [hTwins.toSameOutside.stat_eq hStat
              (.inr (hOutside _ List.mem_cons_self))]
            dsimp only
            rw [if_neg hDirectory]
            exact ⟨rfl, fun source hSource => hSource⟩

theorem ofFile_of_twins
    (hTwins : Disk.Twins place d e)
    {file : String}
    {source : Source}
    (hOutside : d.IsOutside place source.path)
    (hSource : source ∈ (ofFile d s file).items) :
    source ∈ (ofFile e s file).items := by
  rw [mem_ofFile_iff] at hSource ⊢
  rw [resolvePath_of_twins hTwins]
  exact ⟨hSource.1, hTwins.toSameOutside.stat_eq hSource.2.1
    (.inr hOutside), hSource.2.2⟩

/- Settings that name files outside have no other sources. -/
theorem areOutside_of_named
    (hNamed :
      ∀ item ∈ s.roots ++ s.files,
        ∃ path mtime,
          s.resolvePath d item = .ok path ∧
          d.stat path = .ok ⟨false, mtime⟩ ∧
          d.IsOutside place path) :
    AreOutside d place s := by
  intro source hSource
  rcases mem_items_append hSource with hRoots | hFiles
  · rcases mem_items_concat hRoots with ⟨list, hList, hMem⟩
    rcases List.mem_map.mp hList with ⟨root, hRoot, rfl⟩
    rcases hNamed root (List.mem_append_left _ hRoot) with
      ⟨path, mtime, hPath, hStat, hOutside⟩
    rw [ofRoot_eq, hPath] at hMem
    dsimp only at hMem
    rw [hStat] at hMem
    rw [List.mem_singleton.mp hMem]
    exact hOutside
  · rcases mem_items_concat hFiles with ⟨list, hList, hMem⟩
    rcases List.mem_map.mp hList with ⟨file, hFile, rfl⟩
    rcases hNamed file (List.mem_append_right _ hFile) with
      ⟨path, mtime, hPath, -, hOutside⟩
    have hSame := (mem_ofFile_iff.mp hMem).1
    rw [hPath, Except.ok.injEq] at hSame
    rw [← hSame]
    exact hOutside

end Sources

namespace Index

open Sources

variable {place : Place} {d e : Disk} {s : Settings}
variable {strict : Bool}

/- A list that is whole on one disk is whole on the other. -/
theorem isWhole_of_twins
    (hTwins : Disk.Twins place d e)
    (hOutside : AreOutside d place s)
    (hWhole : (ofSettings d s).failure = none) :
    (ofSettings e s).failure = none := by
  have hParts := failure_ofSettings_eq_none_iff.mp hWhole
  rw [failure_ofSettings_eq_none_iff]
  refine ⟨fun root hRoot => ?_, fun file hFile => ?_⟩
  · exact (ofRoot_of_twins hTwins (hParts.1 root hRoot)
      fun source hSource => hOutside source
        (mem_ofSettings_of_root hWhole hRoot hSource)).1
  · have hResolves := hParts.2 file hFile
    rw [failure_ofFile_eq_none_iff] at hResolves ⊢
    unfold FileResolves
    rw [resolvePath_of_twins hTwins]
    exact hResolves

/- Sources on one disk are sources on the other. -/
theorem mem_sourcesOf_of_twins
    (hTwins : Disk.Twins place d e)
    (hOutside : AreOutside d place s)
    (hOutsideToo : AreOutside e place s)
    (hWhole : (ofSettings d s).failure = none)
    {source : Source}
    (hSource : source ∈ sourcesOf ⟨d, s, strict⟩) :
    source ∈ sourcesOf ⟨e, s, strict⟩ := by
  have hWholeToo := isWhole_of_twins hTwins hOutside hWhole
  have hParts := failure_ofSettings_eq_none_iff.mp hWhole
  have hPartsToo := failure_ofSettings_eq_none_iff.mp hWholeToo
  rw [mem_sourcesOf_iff (c := ⟨d, s, strict⟩) hWhole] at hSource
  rw [mem_sourcesOf_iff (c := ⟨e, s, strict⟩) hWholeToo]
  rcases hSource with
    ⟨root, hRoot, hMem⟩ | ⟨⟨file, hFile, hMem⟩, hAlone⟩
  · refine .inl ⟨root, hRoot, ?_⟩
    exact (ofRoot_of_twins hTwins (hParts.1 root hRoot)
      fun other hOther => hOutside other
        (mem_ofSettings_of_root hWhole hRoot hOther)).2 source hMem
  · refine .inr ⟨⟨file, hFile, ?_⟩, fun root hRoot other hOther => ?_⟩
    · exact ofFile_of_twins hTwins
        (hOutside source
          (mem_ofSettings_of_file hWhole hFile hMem)) hMem
    · -- What a root leads to on the second disk it led to before.
      refine hAlone root hRoot other ?_
      exact (ofRoot_of_twins hTwins.symm (hPartsToo.1 root hRoot)
        fun another hAnother => hOutsideToo another
          (mem_ofSettings_of_root hWholeToo hRoot hAnother)).2
        other hOther

end Index

end SymbolAtlas

------------------------------------------------------------
-- The Same Rebuilds
------------------------------------------------------------

namespace SymbolAtlas

namespace Disk

variable {place : Place} {d e : Disk} {path : String}

/- What is outside can be read alike. -/
theorem SameOutside.read_eq
    (hSame : SameOutside place d e)
    {found : Found}
    (hLocate : d.locate true path = .ok found)
    (hOutside : ¬ place <+: found.place) :
    e.read path = d.read path := by
  have hNode := node_of_locate hLocate
  have hOther := hSame.locate_eq hLocate
  rw [hSame.node?_of_outside hOutside, ← hNode] at hOther
  unfold read
  rw [hLocate, hOther]

end Disk

namespace Index

open Sources

variable {place : Place} {d e : Disk} {s : Settings}
variable {strict : Bool}

/- A source that is outside reports the same. -/
theorem reported_of_twins
    (hTwins : Disk.Twins place d e)
    (hOutside : AreOutside d place s)
    {source : Source}
    (hSource : source ∈ sourcesOf ⟨d, s, strict⟩) :
    reported ⟨e, s, strict⟩ source =
      reported ⟨d, s, strict⟩ source := by
  have hMem := firsts_subset hSource
  rcases Disk.exists_locate_of_stat
      (stat_of_mem_ofSettings hMem) with
    ⟨found, hLocate, -, -⟩
  apply run_eq_of_read_eq
  exact hTwins.toSameOutside.read_eq (Disk.locate_normal hLocate)
    (hOutside source hMem found hLocate)

section Twins

variable (hTwins : Disk.Twins place d e)
variable (hHere : AreOutside d place s)
variable (hThere : AreOutside e place s)

include hTwins hHere hThere

theorem mem_sourcesOf_iff_of_twins
    (hWhole : (ofSettings d s).failure = none)
    (source : Source) :
    source ∈ sourcesOf ⟨e, s, strict⟩ ↔
      source ∈ sourcesOf ⟨d, s, strict⟩ :=
  ⟨mem_sourcesOf_of_twins hTwins.symm hThere hHere
      (isWhole_of_twins hTwins hHere hWhole),
    mem_sourcesOf_of_twins hTwins hHere hThere hWhole⟩

/- If nothing is wrong on one disk, nothing is on the other. -/
theorem IsClean.of_twins
    (hClean : IsClean ⟨d, s, strict⟩) :
    IsClean ⟨e, s, strict⟩ := by
  rw [isClean_iff] at hClean ⊢
  rcases hClean with ⟨hWhole, hScanned, hApart⟩
  have hSources (source : Source) :
      source ∈ sourcesOf ⟨e, s, strict⟩ →
        source ∈ sourcesOf ⟨d, s, strict⟩ :=
    (mem_sourcesOf_iff_of_twins hTwins hHere hThere hWhole
      source).mp
  refine ⟨isWhole_of_twins hTwins hHere hWhole,
    fun source hSource => ?_, fun source hSource other hOther => ?_⟩
  · rw [reported_of_twins hTwins hHere (hSources source hSource)]
    exact hScanned source (hSources source hSource)
  · unfold Reports
    rw [reported_of_twins hTwins hHere (hSources source hSource),
      reported_of_twins hTwins hHere (hSources other hOther)]
    exact hApart source (hSources source hSource) other
      (hSources other hOther)

/- A rebuild from nothing knows the same on both disks. -/
theorem rebuild_of_twins
    {i final : Index}
    {missing : Keyed Int}
    (hRebuild :
      rebuild ⟨d, s, strict⟩ (i.withoutFiles missing) =
        .ok () final)
    (j : Index) :
    ∃ other,
      rebuild ⟨e, s, strict⟩ (j.withoutFiles missing) =
        .ok () other ∧
      other.known.SameMaps final.known := by
  have hClean :=
    (rebuild_isOk_iff_isClean _ _ _).mp ⟨final, hRebuild⟩
  have hWhole := (isClean_iff.mp hClean).1
  rcases (rebuild_isOk_iff_isClean _ j missing).mpr
      (hClean.of_twins hTwins hHere hThere) with
    ⟨other, hOther⟩
  refine ⟨other, hOther, ?_⟩
  have hSources (source : Source) :
      source ∈ sourcesOf ⟨e, s, strict⟩ ↔
        source ∈ sourcesOf ⟨d, s, strict⟩ :=
    mem_sourcesOf_iff_of_twins hTwins hHere hThere hWhole source
  have hReported (source : Source)
      (hSource : source ∈ sourcesOf ⟨d, s, strict⟩) :
      reported ⟨e, s, strict⟩ source =
        reported ⟨d, s, strict⟩ source :=
    reported_of_twins hTwins hHere hSource
  rcases known_of_rebuild hRebuild with
    ⟨hSymbols, hEmpty, hMissing⟩
  rcases known_of_rebuild hOther with
    ⟨hSymbolsToo, hEmptyToo, hMissingToo⟩
  refine ⟨?_, ?_, ?_⟩
  · apply Keyed.sameMap_of_iff
    intro symbol entry
    rw [hSymbols, hSymbolsToo]
    refine exists_congr fun source => ?_
    rw [hSources]
    refine and_congr_right fun hSource => ?_
    unfold Reports
    rw [hReported source hSource]
  · apply Keyed.sameMap_of_iff
    intro symbol misses
    rw [hMissing, hMissingToo]
    refine and_congr_right fun _ => forall_congr' fun source => ?_
    rw [hSources]
    refine forall_congr' fun hSource => ?_
    unfold Reports
    rw [hReported source hSource]
  · apply Keyed.sameMap_of_iff
    intro file mtime
    rw [hEmpty, hEmptyToo]
    refine exists_congr fun source => ?_
    rw [hSources]
    refine and_congr_right fun hSource => ?_
    unfold ReportsNothing
    rw [hReported source hSource]

end Twins

end Index

end SymbolAtlas
