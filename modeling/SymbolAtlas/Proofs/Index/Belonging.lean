import SymbolAtlas.Proofs.Index.Origins
import SymbolAtlas.Proofs.Index.Settling
import SymbolAtlas.Proofs.Search.Starts

/-
  The roots that indexed files belong to.

  A file is indexed because the settings name it, or because a
  walk below the directory of a root comes to it. But the walk
  starts where the path of the directory, read as a pattern,
  leads. A path without wildcards that ends in no separator leads
  to the directory alone, so all that is found lies below it.
  Any other path may lead elsewhere, and then files are indexed
  that lie below no root.

  Key definitions:
    * `Path.IsBelow`
    * `Settings.Owns`, `Settings.Strays`
  Key theorems:
    * `Sources.exists_start_of_mem_ofRoot`
    * `Index.indexed_file_belongs_or_strays`
-/

------------------------------------------------------------
-- Paths Below Others
------------------------------------------------------------

namespace SymbolAtlas

namespace Path

/- Some names lead down from the directory to the path. -/
def IsBelow (directory path : String) : Prop :=
  ∃ trail,
    trail ≠ [] ∧
    (∀ name ∈ trail, Disk.IsName name) ∧
    path = below directory trail

/- A separator behind a directory makes no difference below it. -/
theorem child_child_empty
    (directory : String)
    {name : String}
    (hName : Disk.IsName name) :
    child (child directory "") name = child directory name := by
  by_cases hDirect :
      directory = "" ∨ directory.toList.getLast? = some '/'
  · have hSelf : child directory "" = directory := by
      unfold child
      rw [if_neg (by decide), if_pos (by simpa using hDirect),
        String.append_empty]
    rw [hSelf]
  · rw [not_or] at hDirect
    rw [child_of_no_slash (by simp) hDirect.1 hDirect.2,
      child_of_no_slash hName.2 hDirect.1 hDirect.2,
      String.append_empty, child_of_slash directory hName.2]

theorem IsBelow.of_child_empty
    {directory path : String}
    (hBelow : IsBelow (child directory "") path) :
    IsBelow directory path := by
  rcases hBelow with ⟨trail, hSome, hNames, rfl⟩
  refine ⟨trail, hSome, hNames, ?_⟩
  cases trail with
  | nil => exact absurd rfl hSome
  | cons name rest =>
      unfold below
      rw [List.foldl_cons, List.foldl_cons,
        child_child_empty directory (hNames name List.mem_cons_self)]

/- What lies below a directory starts with its path. -/
theorem IsBelow.isPrefix
    {directory path : String}
    (hBelow : IsBelow directory path) :
    directory.toList <+: path.toList := by
  rcases hBelow with ⟨trail, -, hNames, rfl⟩
  induction trail using List.reverseRecOn with
  | nil => exact List.prefix_refl _
  | append_singleton front name ih =>
      rw [List.forall_mem_append] at hNames
      refine (ih hNames.1).trans ?_
      rw [below_concat]
      rcases child_cases (below directory front)
          (hNames.2 name (by simp)) with
        ⟨hChild, -⟩ | ⟨hChild, -⟩
      · rw [hChild, String.toList_append]
        exact List.prefix_append _ _
      · rw [hChild, String.append_assoc, String.toList_append]
        exact List.prefix_append _ _

end Path

end SymbolAtlas

------------------------------------------------------------
-- Roots and Their Files
------------------------------------------------------------

namespace SymbolAtlas

namespace Settings

/- The file is the real path of a root or of a file that is named. -/
def Names (s : Settings) (d : Disk) (file : String) : Prop :=
  ∃ item,
    (item ∈ s.roots ∨ item ∈ s.files) ∧
    s.resolvePath d item = .ok file ∧
    d.isFile file = true

/- The directory is the real path of a root. -/
def HasRoot (s : Settings) (d : Disk) (directory : String) : Prop :=
  ∃ root ∈ s.roots,
    s.resolvePath d root = .ok directory ∧
    d.isDirectory directory = true

/- The file is named, or lies below the directory of a root. -/
def Owns (s : Settings) (d : Disk) (file : String) : Prop :=
  s.Names d file ∨
    ∃ directory,
      s.HasRoot d directory ∧ Path.IsBelow directory file

/-
  The file lies below another directory that the directory of a
  root means, whose path is not a plain one.
-/
def Strays (s : Settings) (d : Disk) (file : String) : Prop :=
  ∃ directory start,
    s.HasRoot d directory ∧
    ¬ Path.IsPlain directory ∧
    Search.Means d directory start ∧
    start ≠ Path.child directory "" ∧
    Path.IsBelow start file

end Settings

namespace Sources

variable {d : Disk} {s : Settings}

/- The search of a root starts where its directory leads. -/
theorem means_of_mem_plan
    (hProper : d.IsProper)
    {root directory base : String}
    {q : Query}
    {plan : Search.Plan}
    {goals : List Search.Goal}
    (hDirectory : s.resolvePath d root = .ok directory)
    (hQuery : queryOf d s directory = .ok q)
    (hPlan : q.plan d = .ok plan)
    (hBase : (base, goals) ∈ plan.entries) :
    Search.Means d directory base := by
  rcases queryOf_shape hQuery with
    ⟨-, ⟨location, hLocation, hLocations⟩, -⟩
  unfold Query.plan at hPlan
  rw [hLocations] at hPlan
  have hPlanned :=
    Search.within_plan hPlan _ _ (Keyed.get?_eq_some_iff.mpr hBase)
  exact hPlanned.means hProper.sound
    (Settings.isRooted_of_resolvePath hDirectory)
    (Settings.normal_of_resolvePath hProper hDirectory) hLocation

/- A source of a root is the root or lies below a start. -/
theorem exists_start_of_mem_ofRoot
    (hProper : d.IsProper)
    {root : String}
    {source : Source}
    (hSource : source ∈ (ofRoot d s root).items) :
    ∃ path,
      s.resolvePath d root = .ok path ∧
      ((d.isFile path = true ∧ source.path = path) ∨
        (d.isDirectory path = true ∧
          ∃ start,
            Search.Means d path start ∧
            Path.IsBelow start source.path)) := by
  rcases mem_ofRoot_cases hSource with
    ⟨path, hPath, hFile |
      ⟨hDirectory, q, record, hQuery, hRecord, hSame⟩⟩
  · exact ⟨path, hPath, .inl hFile⟩
  refine ⟨path, hPath, .inr ⟨hDirectory, ?_⟩⟩
  rcases Query.exists_walk_of_mem_run (queryOf_shape hQuery).2.2
      hRecord with
    ⟨plan, base, goals, hPlan, hBase, hWalk⟩
  rcases Search.Walker.comes_of_mem_walk hProper.sound hWalk with
    ⟨front, name, -, -, hComes⟩
  have hRooted :=
    (isForFiles_of_queryOf hPath hQuery hPlan _ _
      (Keyed.get?_eq_some_iff.mpr hBase)).1
  refine ⟨base, means_of_mem_plan hProper hPath hQuery hPlan hBase,
    front ++ [name], by simp, hComes.isName_of_listed hProper.sound,
    ?_⟩
  rw [hSame, hComes.entry.path_eq,
    (Record.pathAlong_of_rooted hRooted _).1]

/- Every source belongs to a root, or strays from one. -/
theorem owns_or_strays_of_mem
    (hProper : d.IsProper)
    {source : Source}
    (hSource : source ∈ (ofSettings d s).items) :
    s.Owns d source.path ∨ s.Strays d source.path := by
  rcases mem_items_append hSource with hRoots | hFiles
  · rcases mem_items_concat hRoots with ⟨list, hList, hMem⟩
    rcases List.mem_map.mp hList with ⟨root, hRoot, rfl⟩
    rcases exists_start_of_mem_ofRoot hProper hMem with
      ⟨path, hPath, ⟨hFile, hSame⟩ |
        ⟨hDirectory, start, hMeans, hBelow⟩⟩
    · rw [hSame]
      exact .inl (.inl ⟨root, .inl hRoot, hPath, hFile⟩)
    by_cases hStart : start = Path.child path ""
    · rw [hStart] at hBelow
      exact .inl (.inr ⟨path, ⟨root, hRoot, hPath, hDirectory⟩,
        hBelow.of_child_empty⟩)
    · refine .inr ⟨path, start, ⟨root, hRoot, hPath, hDirectory⟩,
        fun hPlain => ?_, hMeans, hStart, hBelow⟩
      exact hStart (Search.eq_of_fits_patternOf hPlain hMeans.2)
  · rcases mem_items_concat hFiles with ⟨list, hList, hMem⟩
    rcases List.mem_map.mp hList with ⟨file, hFile, rfl⟩
    rcases mem_ofFile_iff.mp hMem with ⟨hPath, hStat, -⟩
    exact .inl (.inl ⟨file, .inr hFile, hPath,
      Disk.isFile_of_stat hStat⟩)

end Sources

namespace Index

/-
  A file that a rebuild has indexed belongs to a root or is named,
  or it lies below another directory that the path of a root
  means. The last can happen only if the path has wildcards or
  ends in a separator.
-/
theorem indexed_file_belongs_or_strays
    {c : Context}
    (hProper : c.disk.IsProper)
    {i final : Index}
    (hRebuild : rebuild c i = .ok () final)
    {file : String}
    {mtime : Int}
    (hFile : final.known.Records file mtime) :
    c.settings.Owns c.disk file ∨
      c.settings.Strays c.disk file := by
  rcases ((settled_of_rebuild hRebuild).recorded file
      mtime).mp hFile with
    ⟨source, hSource, rfl, -⟩
  exact Sources.owns_or_strays_of_mem hProper
    (Sources.firsts_subset hSource)

/- A root that ends in a backslash, and a directory without. -/
def slanted : Context where
  disk :=
    { nodes := [
        (["w"], .newDirectory),
        (["w", "lib"], .newDirectory),
        (["w", "lib", "y.php"], .file .empty 5),
        (["w", "lib\\"], .newDirectory),
        (["w", "lib\\", "x.php"], .file .empty 5)]
      cwd := ["w"] }
  settings :=
    { projectDir := "/w"
      roots := ["lib\\"] }
  strict := true

theorem slanted_rebuild :
    slanted.disk.IsProper ∧
    (rebuild slanted {} matches .ok _ _) = true ∧
    ⟨"/w/lib/y.php", 5, false⟩ ∈ sourcesOf slanted ∧
    slanted.settings.resolvePath slanted.disk "lib\\" =
      .ok "/w/lib\\" := by
  exact ⟨⟨by decide +kernel, ⟨by decide, by decide⟩, by decide⟩,
    by decide +kernel, by decide +kernel, by decide +kernel⟩

theorem slanted_owns_not :
    ¬ slanted.settings.Owns slanted.disk "/w/lib/y.php" := by
  have hRoot := slanted_rebuild.2.2.2
  rintro (⟨item, hItem, hPath, -⟩ |
    ⟨directory, ⟨root, hMem, hPath, -⟩, hBelow⟩)
  · have hOnly : item = "lib\\" := by
      simpa [slanted] using hItem
    rw [hOnly, hRoot, Except.ok.injEq] at hPath
    exact absurd hPath (by decide)
  · have hOnly : root = "lib\\" := by
      simpa [slanted] using hMem
    rw [hOnly, hRoot, Except.ok.injEq] at hPath
    rw [← hPath] at hBelow
    exact absurd hBelow.isPrefix (by decide)

/- The file of the other directory is indexed, and strays. -/
theorem neighbour_is_indexed :
    ∃ final,
      rebuild slanted {} = .ok () final ∧
      final.known.Records "/w/lib/y.php" 5 ∧
      ¬ slanted.settings.Owns slanted.disk "/w/lib/y.php" ∧
      slanted.settings.Strays slanted.disk "/w/lib/y.php" := by
  rcases slanted_rebuild with ⟨hProper, hSucceeds, hSource, -⟩
  cases hRebuild : rebuild slanted {} with
  | error error final =>
      rw [hRebuild] at hSucceeds
      cases hSucceeds
  | ok value final =>
      have hRecords :=
        ((settled_of_rebuild hRebuild).recorded
          "/w/lib/y.php" 5).mpr ⟨_, hSource, rfl, rfl⟩
      refine ⟨final, rfl, hRecords, slanted_owns_not, ?_⟩
      exact (indexed_file_belongs_or_strays hProper hRebuild
        hRecords).resolve_left slanted_owns_not

end Index

end SymbolAtlas
