import Mathlib.Data.List.Nodup
import SymbolAtlas.Proofs.Disk.Approach

/-
  Names of entries and what a listing shows.

  On a sound disk every entry has a name that is no path, and no
  place is taken twice. So a listing shows each name once, and
  names that are joined to a path can be told apart again.

  Key definitions:
    * `Disk.IsName`, `Disk.IsSound`, `Disk.namesAt`

  Key theorems:
    * `Disk.mem_childNames_iff`
    * `Disk.exists_place_of_mem_namesAt`
    * `Path.joined_inj`
-/

------------------------------------------------------------
-- Names of Entries
------------------------------------------------------------

namespace SymbolAtlas

namespace Disk

/- A text that can be the name of an entry. -/
def IsName (name : String) : Prop :=
  IsPlain name ∧ '/' ∉ name.toList

instance
    (name : String) :
    Decidable (IsName name) :=
  inferInstanceAs
    (Decidable
      ((Route.isVoid name = false ∧ name ≠ "..") ∧
        '/' ∉ name.toList))

/- Entries have names, and no place is taken twice. -/
structure IsSound (d : Disk) : Prop where
  names : ∀ entry ∈ d.nodes, ∀ name ∈ entry.1, IsName name
  places : (d.nodes.map Prod.fst).Nodup

/- A library with one file in a directory of its own. -/
def library : Disk where
  nodes :=
    [(["w"], .newDirectory),
      (["w", "lib"], .newDirectory),
      (["w", "lib", "sub"], .newDirectory),
      (["w", "lib", "sub", "f.php"], .file .empty 1000)]
  cwd := ["w"]

theorem isSound_library : library.IsSound :=
  ⟨by decide, by decide⟩

/- The names in a directory, none if it cannot be listed. -/
def namesAt (d : Disk) (path : String) : List String :=
  (d.list path).toOption.getD []

theorem isDirectory_iff
    {d : Disk}
    {path : String} :
    d.isDirectory path = true ↔
      ∃ place mtime,
        d.locate true path = .ok ⟨place, some (.dir mtime)⟩ := by
  unfold isDirectory stat
  cases hLocate : d.locate true path with
  | error fault => simp [Except.toOption]
  | ok found =>
      obtain ⟨place, node⟩ := found
      rcases node with - | ⟨content, mtime⟩ | mtime | target <;>
        simp [Except.toOption]

theorem isDirectory_iff_stat
    {d : Disk}
    {path : String} :
    d.isDirectory path = true ↔
      ∃ mtime, d.stat path = .ok ⟨true, mtime⟩ := by
  unfold isDirectory
  cases d.stat path with
  | error fault => simp [Except.toOption]
  | ok stat =>
      obtain ⟨isDirectory, mtime⟩ := stat
      cases isDirectory <;> simp [Except.toOption]

theorem isFile_iff
    {d : Disk}
    {path : String} :
    d.isFile path = true ↔
      ∃ place content mtime,
        d.locate true path =
          .ok ⟨place, some (.file content mtime)⟩ := by
  unfold isFile stat
  cases hLocate : d.locate true path with
  | error fault => simp [Except.toOption]
  | ok found =>
      obtain ⟨place, node⟩ := found
      rcases node with - | ⟨content, mtime⟩ | mtime | target <;>
        simp [Except.toOption]

theorem IsName.ne_empty
    {name : String}
    (hName : IsName name) :
    name ≠ "" := by
  rintro rfl
  cases hName.1.1

theorem childName?_eq_some_iff
    {parent place : Place}
    {name : String} :
    childName? parent place = some name ↔
      place = parent ++ [name] := by
  rcases List.eq_nil_or_concat place with rfl | ⟨front, last, rfl⟩
  · simp [childName?]
  · unfold childName?
    rw [List.concat_eq_append, List.getLast?_concat,
      List.dropLast_concat]
    dsimp only
    rw [List.append_singleton_inj]
    split <;> simp_all

theorem mem_childNames_iff
    {d : Disk}
    {place : Place}
    {name : String} :
    name ∈ d.childNames place ↔
      place ++ [name] ∈ d.nodes.map Prod.fst := by
  unfold childNames
  rw [List.mem_mergeSort, List.mem_filterMap, List.mem_map]
  simp only [childName?_eq_some_iff]

theorem IsSound.nodup_childNames
    {d : Disk}
    (hSound : d.IsSound)
    (place : Place) :
    (d.childNames place).Nodup := by
  unfold childNames
  rw [(List.mergeSort_perm _ _).nodup_iff]
  change
    (d.nodes.filterMap (childName? place ∘ Prod.fst)).Nodup
  rw [← List.filterMap_map]
  apply List.Nodup.filterMap _ hSound.places
  intro first second name hFirst hSecond
  rw [Option.mem_def, childName?_eq_some_iff] at hFirst hSecond
  rw [hFirst, hSecond]

/- A listing shows what is directly below one directory. -/
theorem exists_place_of_list
    {d : Disk}
    {path : String}
    {names : List String}
    (hList : d.list path = .ok names) :
    ∃ place mtime,
      d.locate true path = .ok ⟨place, some (.dir mtime)⟩ ∧
        names.Perm (d.childNames place) := by
  unfold list at hList
  split at hList
  · cases hList
  · split at hList
    · cases hList
    · next found hLocate =>
        obtain ⟨place, node⟩ := found
        dsimp only at hList
        split at hList
        · cases hList
          exact ⟨place, _, hLocate, d.listing.perm _ _⟩
        · cases hList
        · cases hList

theorem list_of_mem_namesAt
    {d : Disk}
    {path name : String}
    (hName : name ∈ d.namesAt path) :
    ∃ names, d.list path = .ok names ∧ name ∈ names := by
  unfold namesAt at hName
  cases hList : d.list path with
  | error fault =>
      rw [hList] at hName
      cases hName
  | ok names =>
      rw [hList] at hName
      exact ⟨names, rfl, hName⟩

/- A name that is listed has a place below a directory. -/
theorem exists_place_of_mem_namesAt
    {d : Disk}
    {path name : String}
    (hName : name ∈ d.namesAt path) :
    ∃ place mtime,
      d.locate true path = .ok ⟨place, some (.dir mtime)⟩ ∧
        place ++ [name] ∈ d.nodes.map Prod.fst := by
  rcases list_of_mem_namesAt hName with ⟨names, hList, hMem⟩
  rcases exists_place_of_list hList with
    ⟨place, mtime, hLocate, hPerm⟩
  exact ⟨place, mtime, hLocate,
    mem_childNames_iff.mp (hPerm.mem_iff.mp hMem)⟩

/- What can be listed is what has a place below. -/
theorem mem_namesAt_iff
    {d : Disk}
    {path : String}
    {names : List String}
    {place : Place}
    {node : Option Node}
    (hList : d.list path = .ok names)
    (hLocate : d.locate true path = .ok ⟨place, node⟩)
    {name : String} :
    name ∈ d.namesAt path ↔
      place ++ [name] ∈ d.nodes.map Prod.fst := by
  rcases exists_place_of_list hList with
    ⟨other, mtime, hOther, hPerm⟩
  rw [hLocate] at hOther
  cases hOther
  unfold namesAt
  rw [hList, ← mem_childNames_iff]
  exact hPerm.mem_iff

theorem exists_node_of_mem_namesAt
    {d : Disk}
    {path name : String}
    (hName : name ∈ d.namesAt path) :
    ∃ entry ∈ d.nodes, name ∈ entry.1 := by
  rcases exists_place_of_mem_namesAt hName with
    ⟨place, -, -, hPlace⟩
  rcases List.mem_map.mp hPlace with ⟨entry, hEntry, hSame⟩
  refine ⟨entry, hEntry, ?_⟩
  rw [hSame]
  simp

theorem IsSound.isName_of_mem_namesAt
    {d : Disk}
    (hSound : d.IsSound)
    {path name : String}
    (hName : name ∈ d.namesAt path) :
    IsName name := by
  rcases exists_node_of_mem_namesAt hName with
    ⟨entry, hEntry, hMem⟩
  exact hSound.names entry hEntry name hMem

theorem IsSound.nodup_namesAt
    {d : Disk}
    (hSound : d.IsSound)
    (path : String) :
    (d.namesAt path).Nodup := by
  unfold namesAt
  cases hList : d.list path with
  | error fault => exact List.nodup_nil
  | ok names =>
      rcases exists_place_of_list hList with ⟨place, -, -, hPerm⟩
      exact hPerm.nodup_iff.mpr (hSound.nodup_childNames place)

end Disk

end SymbolAtlas

------------------------------------------------------------
-- Relative Paths
------------------------------------------------------------

namespace SymbolAtlas

namespace Path

theorem joined_concat
    {trail : List String}
    (hSome : trail ≠ [])
    (name : String) :
    joined (trail ++ [name]) = joined trail ++ "/" ++ name := by
  apply String.toList_injective
  simp only [joined, String.toList_append,
    String.toList_intercalate, List.map_append, List.map_cons,
    List.map_nil]
  induction trail with
  | nil => exact absurd rfl hSome
  | cons first rest ih =>
      cases rest with
      | nil => simp
      | cons second others =>
          have hRest := ih (by simp)
          simp only [List.map_cons, List.cons_append,
            List.intercalate_cons_cons] at hRest ⊢
          rw [hRest]
          simp

theorem joined_ne_empty
    {trail : List String}
    (hNames : ∀ name ∈ trail, Disk.IsName name)
    (hSome : trail ≠ []) :
    joined trail ≠ "" := by
  intro hEmpty
  have hTrail :=
    names_joined (fun name hName => (hNames name hName).2) hSome
  rw [hEmpty] at hTrail
  have hBlank : "" ∈ trail := by
    rw [← hTrail]
    decide
  exact (hNames "" hBlank).ne_empty rfl

/- Trails with the same relative path are the same. -/
theorem joined_inj
    {trail other : List String}
    (hTrail : ∀ name ∈ trail, Disk.IsName name)
    (hOther : ∀ name ∈ other, Disk.IsName name)
    (hTrailSome : trail ≠ [])
    (hOtherSome : other ≠ [])
    (hJoined : joined trail = joined other) :
    trail = other := by
  rw [← names_joined (fun name hName => (hTrail name hName).2)
      hTrailSome, hJoined,
    names_joined (fun name hName => (hOther name hName).2)
      hOtherSome]

theorem baseName_joined_concat
    (trail : List String)
    {name : String}
    (hSlash : '/' ∉ name.toList) :
    baseName (joined (trail ++ [name])) = name := by
  have hName :
      ∀ c ∈ name.toList.reverse, (c != '/') = true := by
    intro c hC
    rw [bne_iff_ne]
    rintro rfl
    exact hSlash (List.mem_reverse.mp hC)
  unfold baseName
  by_cases hSome : trail = []
  · subst hSome
    have hChars : (joined ([] ++ [name])).toList = name.toList := by
      simp [joined]
    rw [hChars, List.takeWhile_eq_self_iff.mpr hName]
    simp
  · have hChars :
        (joined (trail ++ [name])).toList.reverse =
          name.toList.reverse ++
            '/' :: (joined trail).toList.reverse := by
      rw [joined_concat hSome]
      simp
    rw [hChars, List.takeWhile_append_of_pos hName]
    simp

end Path

end SymbolAtlas
