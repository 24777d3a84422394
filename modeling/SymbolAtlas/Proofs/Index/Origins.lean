import SymbolAtlas.Proofs.Disk.Leading
import SymbolAtlas.Proofs.Search.Arrivals
import SymbolAtlas.Proofs.Store.Artifacts

/-
  The ways to a source.

  A source is named by the settings, or a walk comes to it from
  a base along a trail. Links on the trail are followed. Behind
  the last one every step leads to what lies directly below, so
  the real path of the source is that of the last turn followed
  by the rest of the trail.

  Key definitions:
    * `Search.lastTurn`, `Search.Steps`
    * `Sources.Reaches`, `Sources.Bans`
  Key theorems:
    * `Search.Steps.exists_lastTurn`
    * `Sources.exists_reaches_of_mem`
    * `Sources.Reaches.steps`, `Sources.Reaches.exists_start`
-/

------------------------------------------------------------
-- Steps and Turns
------------------------------------------------------------

namespace SymbolAtlas

namespace Disk

variable {d : Disk} {place goal : Place} {text name : String}

/- What is no link leads to the place directly below. -/
theorem LeadsTo.eq_of_not_link
    {mtime : Int}
    (hText :
      d.locate true text = .ok ⟨place, some (.dir mtime)⟩)
    (hName : IsName name)
    (hLink : ¬ d.IsLink (Path.child text name))
    (hGoal : d.LeadsTo (Path.child text name) goal) :
    goal = place ++ [name] := by
  have hSome : text ≠ "" := by
    rintro rfl
    cases hText
  have hNoLink :
      ∀ target,
        d.node? (place ++ [name]) ≠ some (.link target) := by
    intro target hNode
    apply hLink
    rcases Path.exists_names_child hSome hName with
      ⟨front, hNames, hThins⟩
    refine ⟨place ++ [name], target, ?_⟩
    unfold locate at hText ⊢
    rw [if_neg (by simpa using hSome)] at hText
    rw [if_neg (by simpa using Path.child_ne_empty text hName),
      Path.isRooted_child_of_isName hSome hName, hNames]
    dsimp only
    rw [follow_append_last hName.1 (fun hFollow => by cases hFollow),
      reach_of_follow (follow_of_thins hThins hText), ← hNode]
    rfl
  rcases hGoal with ⟨node, hLocate, -⟩
  rw [locate_child hText hName hNoLink, Except.ok.injEq,
    Found.mk.injEq] at hLocate
  exact hLocate.1.symm

theorem leadsTo_of_isDirectory
    (hDirectory : d.isDirectory text = true) :
    ∃ place, d.LeadsTo text place := by
  rcases isDirectory_iff.mp hDirectory with
    ⟨place, mtime, hLocate⟩
  exact ⟨place, .dir mtime, hLocate, rfl⟩

theorem leadsTo_of_isFile
    (hFile : d.isFile text = true) :
    ∃ place, d.LeadsTo text place := by
  rcases isFile_iff.mp hFile with
    ⟨place, content, mtime, hLocate⟩
  exact ⟨place, .file content mtime, hLocate, rfl⟩

end Disk

namespace Search

/- One more name of a trail, and the last link until then. -/
def turnAt
    (d : Disk)
    (state : String × String)
    (name : String) : String × String :=
  let next := Path.child state.2 name
  (if d.IsLink next then next else state.1, next)

/- The last link on a trail, or its start if there is none. -/
def lastTurn
    (d : Disk)
    (start : String)
    (trail : List String) : String :=
  (trail.foldl (turnAt d) (start, start)).1

variable {d : Disk} {start : String} {trail : List String}

theorem snd_foldl_turnAt
    (state : String × String) :
    (trail.foldl (turnAt d) state).2 =
      Path.below state.2 trail := by
  induction trail generalizing state with
  | nil => rfl
  | cons name rest ih => exact ih _

theorem lastTurn_concat
    (name : String) :
    lastTurn d start (trail ++ [name]) =
      if d.IsLink (Path.below start (trail ++ [name])) then
        Path.below start (trail ++ [name])
      else lastTurn d start trail := by
  have hPath :
      Path.child (trail.foldl (turnAt d) (start, start)).2 name =
        Path.below start (trail ++ [name]) := by
    rw [snd_foldl_turnAt, Path.below_concat]
  unfold lastTurn
  rw [List.foldl_append]
  simp only [List.foldl_cons, List.foldl_nil, turnAt, hPath]

/-
  Every step of the trail leads from a directory to something
  with a property of its place.
-/
def Steps
    (d : Disk)
    (P : Place → Prop)
    (start : String) : List String → Prop :=
  AllSteps fun steps step =>
    Disk.IsName step ∧
    d.isDirectory (Path.below start steps) = true ∧
    ∃ place,
      d.LeadsTo (Path.below start (steps ++ [step])) place ∧
      P place

variable {P : Place → Prop}

/- A step over no link leads to the place directly below. -/
theorem Steps.leadsTo_concat
    {name : String}
    {place : Place}
    (hSteps : Steps d P start (trail ++ [name]))
    (hPlace : d.LeadsTo (Path.below start trail) place)
    (hLink : ¬ d.IsLink (Path.below start (trail ++ [name]))) :
    d.LeadsTo (Path.below start (trail ++ [name]))
        (place ++ [name]) ∧
      P (place ++ [name]) := by
  unfold Steps at hSteps
  rw [allSteps_concat_iff] at hSteps
  rcases hSteps.2 with ⟨hName, hDirectory, goal, hGoal, hHolds⟩
  rcases Disk.isDirectory_iff.mp hDirectory with
    ⟨above, mtime, hAbove⟩
  have hSame : above = place :=
    Disk.LeadsTo.unique ⟨_, hAbove, rfl⟩ hPlace
  rw [hSame] at hAbove
  have hBelow : goal = place ++ [name] := by
    rw [Path.below_concat] at hLink hGoal
    exact hGoal.eq_of_not_link hAbove hName hLink
  rw [← hBelow]
  exact ⟨hGoal, hHolds⟩

theorem Steps.of_concat
    {name : String}
    (hSteps : Steps d P start (trail ++ [name])) :
    Steps d P start trail :=
  (allSteps_concat_iff.mp hSteps).1

/- Without links a trail leads to the place of its names. -/
theorem Steps.leadsTo_append
    {first : Place}
    (hStart : d.LeadsTo start first)
    (hSteps : Steps d P start trail)
    (hLinks :
      ∀ steps,
        steps ≠ [] →
        steps <+: trail →
          ¬ d.IsLink (Path.below start steps)) :
    d.LeadsTo (Path.below start trail) (first ++ trail) := by
  induction trail using List.reverseRecOn with
  | nil =>
      rw [List.append_nil]
      exact hStart
  | append_singleton trail name ih =>
      have hFront := ih hSteps.of_concat fun steps hSome hFront =>
        hLinks steps hSome (hFront.trans (List.prefix_append _ _))
      rw [← List.append_assoc]
      exact (hSteps.leadsTo_concat hFront
        (hLinks _ (by simp) (List.prefix_refl _))).1

/-
  The end of a trail lies below its last turn, and so do all the
  steps between. The induction is on the trail from its end.
-/
theorem Steps.exists_lastTurn
    {first : Place}
    (hStart : d.LeadsTo start first)
    (hSteps : Steps d P start trail) :
    ∃ place rest,
      d.LeadsTo (lastTurn d start trail) place ∧
      d.LeadsTo (Path.below start trail) (place ++ rest) ∧
      ∀ more,
        more ≠ [] → more <+: rest → P (place ++ more) := by
  induction trail using List.reverseRecOn with
  | nil =>
      refine ⟨first, [], hStart, ?_, ?_⟩
      · rw [List.append_nil]
        exact hStart
      intro more hSome hMore
      exact absurd (List.prefix_nil.mp hMore) hSome
  | append_singleton trail name ih =>
      rcases ih hSteps.of_concat with
        ⟨place, rest, hTurn, hEnd, hRest⟩
      rw [lastTurn_concat]
      by_cases hLink :
          d.IsLink (Path.below start (trail ++ [name]))
      · rw [if_pos hLink]
        rcases (allSteps_concat_iff.mp hSteps).2 with
          ⟨-, -, goal, hGoal, -⟩
        refine ⟨goal, [], hGoal, ?_, ?_⟩
        · rw [List.append_nil]
          exact hGoal
        intro more hSome hMore
        exact absurd (List.prefix_nil.mp hMore) hSome
      · rw [if_neg hLink]
        rcases hSteps.leadsTo_concat hEnd hLink with
          ⟨hGoal, hHolds⟩
        rw [List.append_assoc] at hGoal hHolds
        refine ⟨place, rest ++ [name], hTurn, hGoal, ?_⟩
        intro more hSome hMore
        rcases List.prefix_concat_iff.mp hMore with rfl | hFront
        · exact hHolds
        · exact hRest more hSome hFront

end Search

end SymbolAtlas

------------------------------------------------------------
-- Ways
------------------------------------------------------------

namespace SymbolAtlas

namespace Record

/- A walk from a rooted base goes down under the names below. -/
theorem pathAlong_of_rooted
    {base : String}
    (hRooted : Path.isRooted base = true)
    (trail : List String) :
    pathAlong base trail = Path.below base trail ∧
      Path.isRooted (Path.below base trail) = true := by
  induction trail using List.reverseRecOn with
  | nil => exact ⟨rfl, hRooted⟩
  | append_singleton trail name ih =>
      rw [pathAlong_concat, Path.below_concat, ih.1]
      refine ⟨?_, Path.isRooted_child ih.2 name⟩
      unfold pathOf
      dsimp only
      rw [if_pos (Path.isAbsolute_of_isRooted ih.2)]

end Record

namespace Sources

/-
  A way to a source: the settings name a file, as a root or as
  one that stands alone, or a walk below a root comes from a
  base along a trail.
-/
inductive Reaches (d : Disk) (s : Settings) :
    String → List String → String → Prop
| named {item path : String}
    (hItem : item ∈ s.roots ∨ item ∈ s.files)
    (hPath : s.resolvePath d item = .ok path)
    (hFile : d.isFile path = true) :
    Reaches d s path [] path
| walked {root directory base : String} {q : Query}
    {plan : Search.Plan} {goals : List Search.Goal}
    {front : List String} {name : String} {record : Record}
    (hRoot : root ∈ s.roots)
    (hDirectory : s.resolvePath d root = .ok directory)
    (hQuery : queryOf d s directory = .ok q)
    (hPlan : q.plan d = .ok plan)
    (hBase : (base, goals) ∈ plan.entries)
    (hComes :
      q.walker.Comes goals (Search.Listed d base) front name
        record) :
    Reaches d s base (front ++ [name]) record.path

variable {d : Disk} {s : Settings}

/- A source of a root is the root, or a search below it finds it. -/
theorem mem_ofRoot_cases
    {root : String}
    {source : Source}
    (hSource : source ∈ (ofRoot d s root).items) :
    ∃ path,
      s.resolvePath d root = .ok path ∧
      ((d.isFile path = true ∧ source.path = path) ∨
        (d.isDirectory path = true ∧
          ∃ q record,
            queryOf d s path = .ok q ∧
            record ∈ (q.run d).records ∧
            source.path = record.path)) := by
  rcases exists_of_mem_ofRoot hSource with
    ⟨path, mtime, hPath, ⟨hStat, rfl⟩ |
      ⟨hStat, q, record, hQuery, hRecord, rfl⟩⟩
  · exact ⟨path, hPath, .inl ⟨Disk.isFile_of_stat hStat, rfl⟩⟩
  · exact ⟨path, hPath, .inr
      ⟨Disk.isDirectory_iff_stat.mpr ⟨mtime, hStat⟩,
        q, record, hQuery, hRecord, rfl⟩⟩

theorem exists_reaches_of_mem_ofRoot
    (hSound : d.IsSound)
    {root : String}
    (hRoot : root ∈ s.roots)
    {source : Source}
    (hSource : source ∈ (ofRoot d s root).items) :
    ∃ start trail, Reaches d s start trail source.path := by
  rcases mem_ofRoot_cases hSource with
    ⟨path, hPath, ⟨hFile, hSame⟩ |
      ⟨-, q, record, hQuery, hRecord, hSame⟩⟩
  · rw [hSame]
    exact ⟨path, [], .named (.inl hRoot) hPath hFile⟩
  · rcases Query.exists_walk_of_mem_run (queryOf_shape hQuery).2.2
        hRecord with
      ⟨plan, base, goals, hPlan, hBase, hWalk⟩
    rcases Search.Walker.comes_of_mem_walk hSound hWalk with
      ⟨front, name, -, -, hComes⟩
    rw [hSame]
    exact ⟨base, front ++ [name],
      .walked hRoot hPath hQuery hPlan hBase hComes⟩

theorem exists_reaches_of_mem_ofFile
    {file : String}
    (hFile : file ∈ s.files)
    {source : Source}
    (hSource : source ∈ (ofFile d s file).items) :
    ∃ start trail, Reaches d s start trail source.path := by
  rcases mem_ofFile_iff.mp hSource with ⟨hPath, hStat, -⟩
  exact ⟨source.path, [],
    .named (.inr hFile) hPath (Disk.isFile_of_stat hStat)⟩

/- There is a way to every source. -/
theorem exists_reaches_of_mem
    (hSound : d.IsSound)
    {source : Source}
    (hSource : source ∈ (ofSettings d s).items) :
    ∃ start trail, Reaches d s start trail source.path := by
  rcases mem_items_append hSource with hRoots | hFiles
  · rcases mem_items_concat hRoots with ⟨list, hList, hMem⟩
    rcases List.mem_map.mp hList with ⟨root, hRoot, rfl⟩
    exact exists_reaches_of_mem_ofRoot hSound hRoot hMem
  · rcases mem_items_concat hFiles with ⟨list, hList, hMem⟩
    rcases List.mem_map.mp hList with ⟨file, hFile, rfl⟩
    exact exists_reaches_of_mem_ofFile hFile hMem

/- A real path that a search neither keeps nor enters. -/
def Bans (d : Disk) (s : Settings) (real : String) : Prop :=
  (∃ item ∈ s.ignore ++ s.exclude,
    s.resolvePath d item = .ok real) ∧
    d.exists? real = true

/- The search of a root walks rooted directories, for files. -/
theorem isForFiles_of_queryOf
    {root directory : String}
    {q : Query}
    {plan : Search.Plan}
    (hDirectory : s.resolvePath d root = .ok directory)
    (hQuery : queryOf d s directory = .ok q)
    (hPlan : q.plan d = .ok plan) :
    plan.IsForFiles := by
  rcases queryOf_shape hQuery with
    ⟨hKinds, ⟨location, hLocation, hLocations⟩, -⟩
  unfold Query.plan at hPlan
  rw [hLocations] at hPlan
  refine Search.isForFiles_plan (by simp) ?_ hKinds hPlan
  intro other hOther
  rw [List.mem_singleton] at hOther
  rw [hOther]
  exact Path.isRooted_location
    (Settings.isRooted_of_resolvePath hDirectory) (by decide)
    hLocation

/- What the search of a root enters or keeps is not banned. -/
theorem not_bans_of_passes
    (hTree : d.IsTree)
    (hSound : d.IsSound)
    {directory : String}
    {q : Query}
    (hQuery : queryOf d s directory = .ok q)
    {record : Record}
    (hPasses :
      q.walker.Opens record ∨
        q.walker.passes q.walker.content record = true)
    {place : Place}
    (hPlace : d.LeadsTo record.path place) :
    ¬ Bans d s (Disk.textOf place) := by
  rcases queryOf_eq_ok_iff.mp hQuery with
    ⟨banned, plain, hBanned, -, rfl⟩
  have hAllowed : isAllowed d banned record = true := by
    rcases hPasses with hOpens | hKept
    · exact Query.test_of_passes_descent hOpens.2
    · exact Query.test_of_passes_content hKept
  unfold isAllowed at hAllowed
  rw [hPlace.resolve_eq hTree hSound] at hAllowed
  intro hBans
  have hMem := (mem_existing_iff hBanned _).mpr hBans
  simp [hMem] at hAllowed

variable {start path : String} {trail : List String}

/- A way leads to a path below its start. -/
theorem Reaches.path_eq
    (hReaches : Reaches d s start trail path) :
    path = Path.below start trail := by
  cases hReaches with
  | named => rfl
  | walked hRoot hDirectory hQuery hPlan hBase hComes =>
      have hForFiles := isForFiles_of_queryOf hDirectory hQuery hPlan
      have hRooted :=
        (hForFiles _ _ (Keyed.get?_eq_some_iff.mpr hBase)).1
      rw [hComes.entry.path_eq,
        (Record.pathAlong_of_rooted hRooted _).1]

/-
  Every step of a way leads from a directory to something that
  is not banned.
-/
theorem Reaches.steps
    (hTree : d.IsTree)
    (hSound : d.IsSound)
    (hReaches : Reaches d s start trail path) :
    Search.Steps d (fun place => ¬ Bans d s (Disk.textOf place))
      start trail := by
  cases hReaches with
  | named => exact Search.allSteps_nil
  | @walked root directory base q plan goals front name record
      hRoot hDirectory hQuery hPlan hBase hComes =>
      intro steps step hSteps
      have hForFiles := isForFiles_of_queryOf hDirectory hQuery hPlan
      rcases hForFiles _ _ (Keyed.get?_eq_some_iff.mpr hBase) with
        ⟨hRooted, hKinds⟩
      rcases hComes.exists_listed hSteps with
        ⟨entry, hListed, hEntry⟩
      have hText := (Record.pathAlong_of_rooted hRooted steps).1
      have hStat :
          ∃ stat,
            d.stat (Path.below start (steps ++ [step])) =
              .ok stat := by
        have hTaken := hListed.taken
        rw [Record.ofListed?_eq, hText] at hTaken
        rw [Path.below_concat]
        rcases hEntry with hOpens | rfl
        · rcases Record.stat_of_isDirectory hTaken hOpens.1 with
            ⟨mtime, hStat⟩
          exact ⟨_, hStat⟩
        · rcases hComes.wanted with ⟨goal, hGoal, -, hKind, -⟩
          rw [hKinds goal hGoal] at hKind
          rcases Record.stat_of_kind_eq_file hTaken hKind with
            ⟨mtime, hStat⟩
          exact ⟨_, hStat⟩
      rcases hStat with ⟨stat, hStat⟩
      rcases Disk.exists_leadsTo_of_stat hStat with
        ⟨place, hPlace⟩
      refine ⟨?_, ?_, place, hPlace, ?_⟩
      · exact hComes.isName_of_listed hSound step
          (hSteps.subset (by simp))
      · rcases Disk.exists_place_of_mem_namesAt hListed.listed with
          ⟨above, mtime, hAbove, -⟩
        rw [hText] at hAbove
        exact Disk.isDirectory_iff.mpr ⟨above, mtime, hAbove⟩
      · refine not_bans_of_passes hTree hSound hQuery
          (hEntry.imp_right fun hSame => hSame ▸ hComes.kept) ?_
        rw [hListed.path_eq,
          (Record.pathAlong_of_rooted hRooted _).1]
        exact hPlace

/- A way starts at something. -/
theorem Reaches.exists_start
    (hTree : d.IsTree)
    (hSound : d.IsSound)
    (hReaches : Reaches d s start trail path) :
    ∃ first, d.LeadsTo start first := by
  have hSteps := hReaches.steps hTree hSound
  cases hReaches with
  | named hItem hPath hFile => exact Disk.leadsTo_of_isFile hFile
  | @walked root directory base q plan goals front name record =>
      cases front with
      | nil =>
          exact Disk.leadsTo_of_isDirectory
            (hSteps [] name (by simp)).2.1
      | cons first rest =>
          exact Disk.leadsTo_of_isDirectory
            (hSteps [] first (by simp)).2.1

end Sources

end SymbolAtlas
