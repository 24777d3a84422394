import SymbolAtlas.Proofs.Search.Expanding

/-
  Path texts that lead the same way.

  Two texts are alike if both or neither start at the root and
  if they have the same names, except for those that say
  nothing. Alike texts lead to the same directory, and can both
  be listed or both not.

  Key definitions:
    * `Path.Alike`
  Key theorems:
    * `Disk.HasDirectory.of_alike`
    * `Disk.HasDirectory.locate_eq`
    * `Disk.HasDirectory.list_of_alike`
    * `Disk.HasDirectory.mem_namesAt`
-/

------------------------------------------------------------
-- Alike Texts
------------------------------------------------------------

namespace SymbolAtlas

namespace Path

/- The texts differ in names that say nothing alone. -/
structure Alike (text other : String) : Prop where
  rooted : isRooted text = isRooted other
  names : (Route.ofText text).names = (Route.ofText other).names

variable {text other : String}

theorem Alike.refl
    (text : String) :
    Alike text text :=
  ⟨rfl, rfl⟩

theorem Alike.symm
    (hAlike : Alike text other) :
    Alike other text :=
  ⟨hAlike.rooted.symm, hAlike.names.symm⟩

theorem Alike.trans
    {third : String}
    (hAlike : Alike text other)
    (hOther : Alike other third) :
    Alike text third :=
  ⟨hAlike.rooted.trans hOther.rooted,
    hAlike.names.trans hOther.names⟩

/- The first character says where a text starts. -/
theorem isRooted_append_of_ne_empty
    (hSome : text ≠ "")
    (more : String) :
    isRooted (text ++ more) = isRooted text := by
  unfold isRooted
  cases hText : text.toList with
  | nil => exact absurd (by simpa using hText) hSome
  | cons c rest => simp [hText]

theorem names_ofText_append_slash
    (text more : String) :
    (Route.ofText (text ++ "/" ++ more)).names =
      (Route.ofText text).names ++ (Route.ofText more).names := by
  change List.filter _ (names (text ++ "/" ++ more)) = _
  rw [names_append_slash, List.filter_append]
  rfl

/- A slash behind a text says nothing. -/
theorem alike_slash
    (hText : text ≠ "") :
    Alike (text ++ "/") text where
  rooted := isRooted_append_of_ne_empty hText "/"
  names := by
    have hNames := names_ofText_append_slash text ""
    rw [String.append_empty] at hNames
    rw [hNames]
    exact List.append_nil _

/- The names of a child are those of the directory and its own. -/
theorem names_ofText_child
    {name : String}
    (hSlash : '/' ∉ name.toList)
    (directory : String) :
    (Route.ofText (child directory name)).names =
      (Route.ofText directory).names ++
        (Route.ofText name).names := by
  by_cases hEmpty : directory = ""
  · subst hEmpty
    have hChild : child "" name = name := by
      unfold child
      rw [isRooted_of_not_mem hSlash]
      simp
    rw [hChild]
    rfl
  by_cases hEnd : directory.toList.getLast? = some '/'
  · rcases List.getLast?_eq_some_iff.mp hEnd with
      ⟨before, hBefore⟩
    have hDirectory : directory = String.ofList before ++ "/" := by
      apply String.toList_injective
      simp [hBefore]
    have hSelf := names_ofText_append_slash (String.ofList before) ""
    rw [String.append_empty] at hSelf
    rw [hDirectory, child_of_slash _ hSlash,
      names_ofText_append_slash, hSelf]
    simp [Route.ofText, names, segments, Route.isVoid]
  · rw [child_of_no_slash hSlash hEmpty hEnd,
      names_ofText_append_slash]

theorem child_ne_empty_of_directory
    {directory name : String}
    (hSlash : '/' ∉ name.toList)
    (hSome : directory ≠ "") :
    child directory name ≠ "" := by
  unfold child
  rw [isRooted_of_not_mem hSlash, if_neg Bool.false_ne_true]
  split
  · simp [hSome]
  · simp [hSome]

/- An empty name leads nowhere else. -/
theorem alike_child_empty
    {directory : String}
    (hSome : directory ≠ "") :
    Alike (child directory "") directory := by
  refine ⟨?_, ?_⟩
  · have hPlain : isRooted "" = false := rfl
    unfold child
    rw [hPlain, if_neg Bool.false_ne_true]
    split
    · exact isRooted_append_of_ne_empty hSome ""
    · rw [String.append_assoc]
      exact isRooted_append_of_ne_empty hSome _
  · rw [names_ofText_child (by simp)]
    exact List.append_nil _

end Path

end SymbolAtlas

------------------------------------------------------------
-- Searches Without Empty Names
------------------------------------------------------------

namespace SymbolAtlas

namespace Disk

variable {d : Disk} {names : List String}

/- What is still to be searched, without names that say nothing. -/
def Approach.bare : Approach → Approach
| .reached goal => .reached goal
| .detour parent target rest =>
    .detour parent target (rest.filter (!Route.isVoid ·))

theorem approach_filter
    (d : Disk)
    (place : Place)
    (names : List String) :
    d.approach place (names.filter (!Route.isVoid ·)) =
      (d.approach place names).map Approach.bare := by
  induction names generalizing place with
  | nil => rfl
  | cons name rest ih =>
      cases hVoid : Route.isVoid name with
      | true =>
          rw [List.filter_cons_of_neg (by simp [hVoid]),
            approach, if_pos hVoid]
          exact ih place
      | false =>
          rw [List.filter_cons_of_pos (by simp [hVoid]),
            approach, approach, hVoid]
          simp only [Bool.false_eq_true, if_false]
          split
          · exact ih place.dropLast
          cases d.node? (place ++ [name]) with
          | none => rfl
          | some node =>
              cases node with
              | file content mtime => rfl
              | dir mtime => exact ih (place ++ [name])
              | link target => rfl

/-
  Names that say nothing lead nowhere else. The induction is on
  the links left; a target and the names behind it lose theirs
  at once.
-/
theorem reach_filter
    (links : Nat)
    (place : Place)
    (names : List String) :
    d.reach links place (names.filter (!Route.isVoid ·)) =
      d.reach links place names := by
  induction links generalizing place names with
  | zero =>
      unfold reach
      rw [approach_filter]
      cases d.approach place names with
      | error fault => rfl
      | ok way => cases way <;> rfl
  | succ links ih =>
      unfold reach
      rw [approach_filter]
      cases d.approach place names with
      | error fault => rfl
      | ok way =>
          cases way with
          | reached goal => rfl
          | detour parent target rest =>
              dsimp only [Except.map, Approach.bare]
              rw [← ih _ (Path.names target ++ rest),
                ← ih _ (Path.names target ++ _),
                List.filter_append, List.filter_append,
                List.filter_filter]
              simp only [Bool.and_self]

theorem normalNames_filter
    (kept : List String) :
    normalNames kept (names.filter (!Route.isVoid ·)) =
      normalNames kept names := by
  induction names generalizing kept with
  | nil => rfl
  | cons name rest ih =>
      cases hVoid : Route.isVoid name with
      | true =>
          rw [List.filter_cons_of_neg (by simp [hVoid]),
            normalNames, if_pos hVoid]
          exact ih kept
      | false =>
          rw [List.filter_cons_of_pos (by simp [hVoid]),
            normalNames, normalNames, hVoid]
          simp only [ih]

end Disk

end SymbolAtlas

------------------------------------------------------------
-- Directories of Alike Texts
------------------------------------------------------------

namespace SymbolAtlas

namespace Disk

variable {d : Disk} {text other : String} {place : Place}

theorem startOf_eq
    (d : Disk)
    (text : String) :
    d.startOf text = if Path.isRooted text then [] else d.cwd := by
  unfold startOf
  rw [Route.isRooted_ofText]

/- The names of a text lead where those that say something do. -/
theorem HasDirectory.reach_names
    (hHas : d.HasDirectory text place) :
    d.reach linkLimit (d.startOf text) (Path.names text) =
      .ok place := by
  rw [← hHas.reached]
  exact (reach_filter _ _ _).symm

theorem HasDirectory.of_alike
    (hHas : d.HasDirectory text place)
    (hAlike : Path.Alike text other) :
    d.HasDirectory other place := by
  have hStart : d.startOf other = d.startOf text := by
    rw [startOf_eq, startOf_eq, hAlike.rooted]
  refine ⟨?_, ?_⟩
  · rw [hStart]
    exact hHas.start
  · rw [hStart, ← hAlike.names]
    exact hHas.reached

theorem locate_of_ne_empty
    (hSome : text ≠ "")
    (followLast : Bool) :
    d.locate followLast text =
      d.follow followLast linkLimit (d.startOf text)
        (Path.names text) := by
  unfold locate
  rw [if_neg (by simpa using hSome), startOf_eq]

/- A text leads to the directory that it has. -/
theorem HasDirectory.locate_eq
    (hHas : d.HasDirectory text place)
    (hSome : text ≠ "") :
    ∃ mtime,
      d.node? place = some (.dir mtime) ∧
        d.locate true text = .ok ⟨place, some (.dir mtime)⟩ := by
  rw [locate_of_ne_empty hSome]
  rcases follow_of_reach hHas.start hHas.reach_names true with
    ⟨last, node, hFollow, hNode⟩
  rcases hNode rfl with ⟨mtime, rfl⟩
  have hLast := reach_of_follow hFollow
  rw [hHas.reach_names] at hLast
  cases hLast
  exact ⟨mtime, (node_of_follow hFollow).symm, hFollow⟩

theorem HasDirectory.isDirectory
    (hHas : d.HasDirectory text place)
    (hSome : text ≠ "") :
    d.isDirectory text = true := by
  rcases hHas.locate_eq hSome with ⟨mtime, -, hLocate⟩
  exact isDirectory_iff.mpr ⟨place, mtime, hLocate⟩

theorem HasDirectory.isPresent
    (hHas : d.HasDirectory text place)
    (hSome : text ≠ "") :
    d.isPresent text = true := by
  rcases follow_of_reach hHas.start hHas.reach_names false with
    ⟨last, node, hFollow, -⟩
  unfold Disk.isPresent
  rw [locate_of_ne_empty hSome, hFollow]
  rfl

theorem exists_hasDirectory
    (hCwd : d.Grounded d.cwd)
    (hDirectory : d.isDirectory text = true) :
    ∃ place, d.HasDirectory text place := by
  rcases isDirectory_iff.mp hDirectory with
    ⟨place, mtime, hLocate⟩
  have hSome : text ≠ "" := by
    rintro rfl
    cases hLocate
  rw [locate_of_ne_empty hSome] at hLocate
  refine ⟨place, grounded_startOf hCwd text, ?_⟩
  exact (reach_filter _ _ _).trans (reach_of_follow hLocate)

/- Alike texts lead to one place. -/
theorem HasDirectory.locate_of_alike
    (hHas : d.HasDirectory text place)
    (hAlike : Path.Alike text other)
    (hText : text ≠ "")
    (hOther : other ≠ "") :
    d.locate true other = d.locate true text := by
  rcases hHas.locate_eq hText with ⟨mtime, hNode, hLocate⟩
  rcases (hHas.of_alike hAlike).locate_eq hOther with
    ⟨time, hSame, hThere⟩
  rw [hNode] at hSame
  cases hSame
  rw [hLocate, hThere]

theorem absoluteText_of_alike
    (hAlike : Path.Alike text other) :
    d.absoluteText other = d.absoluteText text := by
  have hSame (start : Place) :
      normalNames start (Path.names other) =
        normalNames start (Path.names text) := by
    calc
      _ = normalNames start (Route.ofText other).names :=
        (normalNames_filter start).symm
      _ = normalNames start (Route.ofText text).names :=
        congrArg (normalNames start) hAlike.names.symm
      _ = _ := normalNames_filter start
  unfold absoluteText
  dsimp only
  rw [← hAlike.rooted, hSame]

/- A directory is listed under any of its alike texts. -/
theorem HasDirectory.list_of_alike
    (hHas : d.HasDirectory text place)
    (hAlike : Path.Alike text other)
    (hText : text ≠ "")
    (hOther : other ≠ "") :
    d.list other = d.list text := by
  unfold list
  rw [absoluteText_of_alike hAlike,
    hHas.locate_of_alike hAlike hText hOther]

/-
  A directory that a name leads to is listed with that name,
  and the directory it is in is one.
-/
theorem HasDirectory.of_child
    {directory name : String}
    (hHas : d.HasDirectory (Path.child directory name) place)
    (hName : IsName name)
    (hSome : directory ≠ "") :
    ∃ above,
      d.HasDirectory directory above ∧
        d.node? (above ++ [name]) ≠ none := by
  have hStart :
      d.startOf (Path.child directory name) =
        d.startOf directory := by
    rw [startOf_eq, startOf_eq,
      Path.isRooted_child_of_isName hSome hName]
  have hNames :
      (Route.ofText (Path.child directory name)).names =
        (Route.ofText directory).names ++ [name] := by
    rw [Path.names_ofText_child hName.2]
    simp [Route.ofText, Path.names_of_not_mem hName.2, hName.1.1]
  have hReached := hHas.reached
  rw [hStart, hNames] at hReached
  have hGrounded := hHas.start
  rw [hStart] at hGrounded
  rcases exists_reach_of_append hReached with ⟨above, hAbove⟩
  rcases follow_of_reach hGrounded hReached false with
    ⟨last, node, hFollow, -⟩
  rw [follow_append_last hName.1 (by simp), hAbove] at hFollow
  simp only [Except.map, Except.ok.injEq, Found.mk.injEq]
    at hFollow
  refine ⟨above, ⟨hGrounded, hAbove⟩, ?_⟩
  rw [hFollow.2]
  exact Option.some_ne_none node

/- Such a name is among those that are listed. -/
theorem HasDirectory.mem_namesAt
    {directory name : String}
    {names : List String}
    (hHas : d.HasDirectory (Path.child directory name) place)
    (hName : IsName name)
    (hSome : directory ≠ "")
    (hList : d.list directory = .ok names) :
    name ∈ d.namesAt directory := by
  rcases hHas.of_child hName hSome with ⟨above, hAbove, hNode⟩
  rcases hAbove.locate_eq hSome with ⟨mtime, -, hLocate⟩
  rcases Option.ne_none_iff_exists'.mp hNode with ⟨node, hThere⟩
  rw [mem_namesAt_iff hList hLocate]
  exact List.mem_map_of_mem
    (mem_nodes_of_node? (by simp) hThere)

end Disk

end SymbolAtlas
