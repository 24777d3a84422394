import SymbolAtlas.Proofs.Disk.Names
import SymbolAtlas.Proofs.Disk.RealPaths

/-
  Disks that differ in the files of one directory.

  Files in a directory may come, go and change. Every path that
  leads somewhere leads to the same place then, and what stands
  at the place is the same, unless it is a file in the directory.

  Key definitions:
    * `Disk.SameOutside`, `Disk.IsOutside`
    * `Disk.Twins`
  Key theorems:
    * `Disk.SameOutside.locate_eq`
    * `Disk.SameOutside.stat_eq`
    * `Disk.SameOutside.mem_namesAt`
-/

------------------------------------------------------------
-- The Same Nodes
------------------------------------------------------------

namespace SymbolAtlas

namespace Disk

/-
  The disks are the same, but for files in the directory at the
  place.
-/
structure SameOutside
    (place : Place)
    (d e : Disk) : Prop where
  links : d.SameLinks e
  denied : e.denied = d.denied
  nodes :
    ∀ other,
      e.node? other = d.node? other ∨
        (place <+: other ∧
          wayAt (d.node? other) = .stops ∧
          wayAt (e.node? other) = .stops)

/- The path does not lead into the directory at the place. -/
def IsOutside
    (d : Disk)
    (place : Place)
    (path : String) : Prop :=
  ∀ found,
    d.locate true path = .ok found → ¬ place <+: found.place

variable {place : Place} {d e : Disk}

theorem SameLinks.symm
    (hLinks : d.SameLinks e) :
    e.SameLinks d where
  cwd := hLinks.cwd.symm
  home := hLinks.home.symm
  links other target := (hLinks.links other target).symm
  size := hLinks.size.symm

theorem SameOutside.symm
    (hSame : SameOutside place d e) :
    SameOutside place e d where
  links := hSame.links.symm
  denied := hSame.denied.symm
  nodes other :=
    (hSame.nodes other).imp Eq.symm
      fun ⟨hBelow, hFirst, hSecond⟩ => ⟨hBelow, hSecond, hFirst⟩

theorem SameOutside.wayAt_eq
    (hSame : SameOutside place d e)
    (other : Place) :
    wayAt (e.node? other) = wayAt (d.node? other) := by
  rcases hSame.nodes other with hNode | ⟨-, hFirst, hSecond⟩
  · rw [hNode]
  · rw [hFirst, hSecond]

theorem SameOutside.sameWays
    (hSame : SameOutside place d e) :
    d.SameWays e :=
  ⟨hSame.links.cwd, fun above name _ =>
    hSame.wayAt_eq (above ++ [name])⟩

/- Only directories are gone down into. -/
theorem dir_of_descends
    {other : Place}
    (hWay : wayAt (d.node? other) = .descends) :
    ∃ mtime, d.node? other = some (.dir mtime) := by
  cases hNode : d.node? other with
  | none =>
      rw [hNode] at hWay
      cases hWay
  | some node =>
      rw [hNode] at hWay
      cases node with
      | file content mtime => cases hWay
      | dir mtime => exact ⟨mtime, rfl⟩
      | link target => cases hWay

theorem link_of_turns
    {other : Place}
    {target : String}
    (hWay : wayAt (d.node? other) = .turns target) :
    d.node? other = some (.link target) := by
  cases hNode : d.node? other with
  | none =>
      rw [hNode] at hWay
      cases hWay
  | some node =>
      rw [hNode] at hWay
      cases node with
      | file content mtime => cases hWay
      | dir mtime => cases hWay
      | link other =>
          cases hWay
          rfl

theorem SameOutside.node?_of_outside
    (hSame : SameOutside place d e)
    {other : Place}
    (hOutside : ¬ place <+: other) :
    e.node? other = d.node? other := by
  rcases hSame.nodes other with hNode | ⟨hBelow, -⟩
  · exact hNode
  · exact absurd hBelow hOutside

theorem SameOutside.node?_of_dir
    (hSame : SameOutside place d e)
    {other : Place}
    {mtime : Int}
    (hNode : d.node? other = some (.dir mtime)) :
    e.node? other = some (.dir mtime) := by
  rcases hSame.nodes other with hEqual | ⟨-, hStops, -⟩
  · exact hEqual.trans hNode
  · rw [hNode] at hStops
    cases hStops

theorem SameOutside.node?_of_link
    (hSame : SameOutside place d e)
    {other : Place}
    {target : String}
    (hNode : d.node? other = some (.link target)) :
    e.node? other = some (.link target) :=
  (hSame.links.links other target).mpr hNode

end Disk

end SymbolAtlas

------------------------------------------------------------
-- The Same Ways
------------------------------------------------------------

namespace SymbolAtlas

namespace Disk

variable {place : Place} {d e : Disk}

/- A search ends where it neither goes down nor turns. -/
theorem advance_of_stops
    {followLast : Bool}
    {start : Place}
    {name : String}
    (hName : IsPlain name)
    (hStops : wayAt (d.node? (start ++ [name])) = .stops)
    (rest : List String) :
    ∃ fault,
      d.advance followLast start (name :: rest) =
        if rest.isEmpty then
          .ok (.arrived
            ⟨start ++ [name], d.node? (start ++ [name])⟩)
        else .error fault := by
  rw [advance, if_neg (by simp [hName.1]), if_neg hName.2]
  cases hNode : d.node? (start ++ [name]) with
  | none => exact ⟨_, rfl⟩
  | some node =>
      rw [hNode] at hStops
      cases node with
      | file content mtime => exact ⟨_, rfl⟩
      | dir mtime => cases hStops
      | link target => cases hStops

/- A search that does not fail comes to the same on both disks. -/
theorem SameOutside.advance_eq
    (hSame : SameOutside place d e)
    {followLast : Bool}
    {start : Place}
    {names : List String} :
    (∀ found,
      d.advance followLast start names = .ok (.arrived found) →
        e.advance followLast start names =
          .ok (.arrived ⟨found.place, e.node? found.place⟩)) ∧
    ∀ parent target rest,
      d.advance followLast start names =
          .ok (.detour parent target rest) →
        e.advance followLast start names =
          .ok (.detour parent target rest) := by
  induction names generalizing start with
  | nil =>
      refine ⟨?_, fun _ _ _ hAdvance => by cases hAdvance⟩
      intro found hAdvance
      cases hAdvance
      rfl
  | cons name rest ih =>
      by_cases hVoid : Route.isVoid name = true
      · simp only [advance, if_pos hVoid]
        exact ih
      by_cases hUp : name = ".."
      · simp only [advance, if_neg hVoid, if_pos hUp]
        exact ih
      cases hWay : wayAt (d.node? (start ++ [name])) with
      | stops =>
          have hOther := (hSame.wayAt_eq _).trans hWay
          have hName : IsPlain name :=
            ⟨by simpa using hVoid, hUp⟩
          rcases advance_of_stops hName hWay rest with
            ⟨fault, hFirst⟩
          rcases advance_of_stops hName hOther rest with
            ⟨another, hSecond⟩
          rw [hFirst, hSecond]
          split
          · refine ⟨?_, fun _ _ _ hAdvance => by cases hAdvance⟩
            intro found hAdvance
            cases hAdvance
            rfl
          · exact ⟨fun _ hAdvance => (by cases hAdvance),
              fun _ _ _ hAdvance => by cases hAdvance⟩
      | descends =>
          rcases dir_of_descends hWay with ⟨mtime, hNode⟩
          simp only [advance, if_neg hVoid, if_neg hUp, hNode,
            hSame.node?_of_dir hNode]
          exact ih
      | turns target =>
          have hNode := link_of_turns hWay
          have hOther := hSame.node?_of_link hNode
          simp only [advance, if_neg hVoid, if_neg hUp, hNode,
            hOther]
          split
          · refine ⟨?_, fun _ _ _ hAdvance => by cases hAdvance⟩
            intro found hAdvance
            cases hAdvance
            rw [hOther]
          · exact ⟨fun _ hAdvance => (by cases hAdvance),
              fun _ _ _ hAdvance => hAdvance⟩

theorem SameOutside.follow_eq
    (hSame : SameOutside place d e)
    {followLast : Bool}
    {links : Nat}
    {start : Place}
    {names : List String}
    {found : Found}
    (hFollow :
      d.follow followLast links start names = .ok found) :
    e.follow followLast links start names =
      .ok ⟨found.place, e.node? found.place⟩ := by
  induction links generalizing start names with
  | zero =>
      unfold follow at hFollow ⊢
      split at hFollow
      · cases hFollow
      · next hAdvance =>
          cases hFollow
          rw [hSame.advance_eq.1 _ hAdvance]
      · cases hFollow
  | succ links ih =>
      unfold follow at hFollow ⊢
      split at hFollow
      · cases hFollow
      · next hAdvance =>
          cases hFollow
          rw [hSame.advance_eq.1 _ hAdvance]
      · next hAdvance =>
          rw [hSame.advance_eq.2 _ _ _ hAdvance]
          exact ih hFollow

/- A path that leads to a place leads there on both disks. -/
theorem SameOutside.locate_eq
    (hSame : SameOutside place d e)
    {followLast : Bool}
    {path : String}
    {found : Found}
    (hLocate : d.locate followLast path = .ok found) :
    e.locate followLast path =
      .ok ⟨found.place, e.node? found.place⟩ := by
  unfold locate at hLocate ⊢
  rw [hSame.links.cwd]
  split at hLocate
  · cases hLocate
  · next hSome =>
      rw [if_neg hSome]
      exact hSame.follow_eq hLocate

end Disk

end SymbolAtlas

------------------------------------------------------------
-- The Same Answers
------------------------------------------------------------

namespace SymbolAtlas

namespace Disk

variable {place : Place} {d e : Disk} {path : String}

theorem SameOutside.isOutside
    (hSame : SameOutside place d e)
    (hOutside : d.IsOutside place path) :
    e.IsOutside place path := by
  intro found hLocate
  have hNot := hOutside _ (hSame.symm.locate_eq hLocate)
  exact hNot

/- What stands somewhere has a place there. -/
theorem exists_locate_of_stat
    {stat : Stat}
    (hStat : d.stat path = .ok stat) :
    ∃ found,
      d.locate true path = .ok found ∧
      found.node = d.node? found.place ∧
      (stat.isDirectory = true →
        found.node = some (.dir stat.mtime)) := by
  unfold Disk.stat at hStat
  cases hLocate : d.locate true path with
  | error fault =>
      rw [hLocate] at hStat
      cases hStat
  | ok found =>
      rw [hLocate] at hStat
      refine ⟨found, rfl, node_of_locate hLocate, ?_⟩
      intro hDirectory
      dsimp only at hStat
      split at hStat
      · cases hStat
        cases hDirectory
      · next hNode =>
          cases hStat
          exact hNode
      · cases hStat

/- Directories and what is outside is told of alike. -/
theorem SameOutside.stat_eq
    (hSame : SameOutside place d e)
    {stat : Stat}
    (hStat : d.stat path = .ok stat)
    (hSeen :
      stat.isDirectory = true ∨ d.IsOutside place path) :
    e.stat path = .ok stat := by
  rcases exists_locate_of_stat hStat with
    ⟨found, hLocate, hNode, hDir⟩
  have hKept : e.node? found.place = d.node? found.place := by
    rcases hSeen with hDirectory | hOutside
    · rw [hSame.node?_of_dir (hNode.symm.trans (hDir hDirectory)),
        ← hNode, hDir hDirectory]
    · exact hSame.node?_of_outside (hOutside found hLocate)
  have hOther := hSame.locate_eq hLocate
  rw [hKept, ← hNode] at hOther
  unfold Disk.stat at hStat ⊢
  rw [hLocate] at hStat
  rw [hOther]
  exact hStat

theorem SameOutside.isDirectory_eq
    (hSame : SameOutside place d e) :
    e.isDirectory = d.isDirectory := by
  have hOne :
      ∀ {d e : Disk}, SameOutside place d e →
        ∀ path, d.isDirectory path = true →
          e.isDirectory path = true := by
    intro d e hSame path hDirectory
    rcases isDirectory_iff.mp hDirectory with
      ⟨other, mtime, hLocate⟩
    apply isDirectory_iff.mpr
    have hNode := node_of_locate hLocate
    refine ⟨other, mtime, ?_⟩
    rw [hSame.locate_eq hLocate, hSame.node?_of_dir hNode.symm]
  funext path
  rw [Bool.eq_iff_iff]
  exact ⟨hOne hSame.symm path, hOne hSame path⟩

theorem SameOutside.exists_list
    (hSame : SameOutside place d e)
    {names : List String}
    (hList : d.list path = .ok names) :
    ∃ others, e.list path = .ok others := by
  rcases exists_place_of_list hList with
    ⟨other, mtime, hLocate, -⟩
  have hNode := node_of_locate hLocate
  have hOther := hSame.locate_eq hLocate
  rw [hSame.node?_of_dir hNode.symm] at hOther
  have hText : e.absoluteText path = d.absoluteText path := by
    unfold absoluteText
    rw [hSame.links.cwd]
  unfold list at hList ⊢
  rw [hSame.denied, hText]
  split at hList
  · cases hList
  · next hAllowed =>
      rw [if_neg hAllowed, hOther]
      exact ⟨_, rfl⟩

/- Directories and what is outside is listed on both disks. -/
theorem SameOutside.mem_namesAt
    (hSame : SameOutside place d e)
    (hTree : d.IsTree)
    {name : String}
    (hName : IsName name)
    (hMem : name ∈ d.namesAt path)
    {stat : Stat}
    (hStat : d.stat (Path.child path name) = .ok stat)
    (hSeen :
      stat.isDirectory = true ∨
        d.IsOutside place (Path.child path name)) :
    name ∈ e.namesAt path := by
  rcases list_of_mem_namesAt hMem with ⟨names, hList, -⟩
  rcases exists_place_of_mem_namesAt hMem with
    ⟨above, mtime, hLocate, hPlace⟩
  rcases hSame.exists_list hList with ⟨others, hOthers⟩
  have hDir := hSame.node?_of_dir (node_of_locate hLocate).symm
  have hOther := hSame.locate_eq hLocate
  rw [hDir] at hOther
  apply (mem_namesAt_iff hOthers hOther).mpr
  have hThere : e.node? (above ++ [name]) ≠ none := by
    rcases hSame.nodes (above ++ [name]) with
      hNode | ⟨hBelow, hStops, -⟩
    · rcases List.mem_map.mp hPlace with
        ⟨⟨entryPlace, node⟩, hEntry, hEqual⟩
      dsimp only at hEqual
      subst hEqual
      rw [hNode, hTree.node?_of_mem (by simp) hEntry]
      simp
    · -- A file in the directory is neither of both.
      have hChild :=
        locate_child hLocate hName (not_link_of_stops hStops)
      rcases hSeen with hDirectory | hOutside
      · rcases exists_locate_of_stat hStat with
          ⟨found, hFound, hNode, hDir⟩
        rw [hChild] at hFound
        cases hFound
        rw [hDir hDirectory] at hNode
        rw [← hNode] at hStops
        cases hStops
      · exact absurd hBelow (hOutside _ hChild)
  rcases Option.ne_none_iff_exists'.mp hThere with ⟨node, hNode⟩
  exact List.mem_map.mpr
    ⟨_, mem_nodes_of_node? (by simp) hNode, rfl⟩

/-
  Trees of named nodes that are the same, but for files in the
  directory at the place.
-/
structure Twins
    (place : Place)
    (d e : Disk) : Prop
    extends SameOutside place d e where
  tree : d.IsTree
  treeToo : e.IsTree
  sound : d.IsSound
  soundToo : e.IsSound

theorem Twins.symm
    (hTwins : Twins place d e) :
    Twins place e d where
  toSameOutside := hTwins.toSameOutside.symm
  tree := hTwins.treeToo
  treeToo := hTwins.tree
  sound := hTwins.soundToo
  soundToo := hTwins.sound

end Disk

end SymbolAtlas
