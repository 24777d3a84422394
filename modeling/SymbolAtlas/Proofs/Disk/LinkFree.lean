import SymbolAtlas.Proofs.Path.Dots

/-
  Disks without links.

  Without links a search never leaves the names that it is
  given, so the entries of a directory lie directly below the
  place of the directory, under whatever text it was found.

  Key definitions:
    * `Disk.LinkFree`

  Key theorems:
    * `Disk.reach_of_follow`
    * `Disk.locate_child`
    * `Disk.advance_through`
-/

------------------------------------------------------------
-- Names of Children
------------------------------------------------------------

namespace SymbolAtlas

namespace Path

theorem names_append_slash
    (text other : String) :
    names (text ++ "/" ++ other) = names text ++ names other := by
  have hChars :
      ∀ front back : List Char,
        (front ++ '/' :: back).splitOn '/' =
          front.splitOn '/' ++ back.splitOn '/' := by
    intro front back
    induction front with
    | nil => simp [List.splitOn_cons_eq_if_modifyHead]
    | cons c rest ih =>
        rw [List.cons_append, List.splitOn_cons_eq_if_modifyHead,
          List.splitOn_cons_eq_if_modifyHead, ih]
        split
        · rfl
        · cases hSplit : rest.splitOn '/' with
          | nil => exact absurd hSplit (List.splitOn_ne_nil _ _)
          | cons first others => rfl
  have hText :
      (text ++ "/" ++ other).toList =
        text.toList ++ '/' :: other.toList := by
    simp
  unfold names segments
  rw [hText, hChars, List.map_append]

/- The names of a child are those of its directory and its own. -/
theorem exists_names_child
    {text name : String}
    (hSome : text ≠ "")
    (hName : Disk.IsName name) :
    ∃ front,
      names (child text name) = front ++ [name] ∧
        Thins (names text) front := by
  rcases child_cases text hName with
    ⟨hChild, hEnd⟩ | ⟨hChild, -, -⟩
  · rcases hEnd with hNone | hSlash
    · exact absurd hNone hSome
    · rcases List.getLast?_eq_some_iff.mp hSlash with
        ⟨chars, hChars⟩
      have hText : text = String.ofList chars ++ "/" := by
        apply String.toList_injective
        simp [hChars]
      have hNames := names_append_slash (String.ofList chars) ""
      rw [String.append_empty, ← hText] at hNames
      refine ⟨names (String.ofList chars), ?_, ?_⟩
      · rw [hChild, hText, names_append_slash,
          names_of_not_mem hName.2]
      · have hVoid : Route.isVoid "" = true := rfl
        have hThins :=
          (Thins.drop hVoid .nil).append_left
            (names (String.ofList chars))
        rw [List.append_nil] at hThins
        rw [hNames]
        exact hThins
  · refine ⟨names text, ?_, ?_⟩
    · rw [hChild, names_append_slash, names_of_not_mem hName.2]
    · have hThins := Thins.nil.append_left (names text)
      rwa [List.append_nil] at hThins

end Path

end SymbolAtlas

------------------------------------------------------------
-- Children of Directories
------------------------------------------------------------

namespace SymbolAtlas

def Node.isLink : Node → Bool
| .link _ => true
| _ => false

namespace Disk

/- No node is a link. -/
def LinkFree (d : Disk) : Prop :=
  ∀ entry ∈ d.nodes, entry.2.isLink = false

variable {d : Disk} {place goal : Place} {names : List String}

theorem mem_nodes_of_node?
    {node : Node}
    (hSome : place ≠ [])
    (hNode : d.node? place = some node) :
    (place, node) ∈ d.nodes := by
  unfold node? at hNode
  rw [if_neg (by simpa using hSome)] at hNode
  rcases List.lookup_eq_some_iff.mp hNode with
    ⟨front, back, hNodes, -⟩
  rw [hNodes]
  simp

theorem LinkFree.node?_ne
    (hFree : d.LinkFree)
    (place : Place)
    (target : String) :
    d.node? place ≠ some (.link target) := by
  intro hNode
  by_cases hSome : place = []
  · rw [hSome] at hNode
    cases hNode
  · have hLink := hFree _ (mem_nodes_of_node? hSome hNode)
    cases hLink

/- A directory that was reached, or the link that comes first. -/
def Progress.way? : Progress → Option Approach
| .arrived ⟨goal, some (.dir _)⟩ => some (.reached goal)
| .arrived _ => none
| .detour parent target rest => some (.detour parent target rest)

/- Without links a search never turns aside. -/
theorem LinkFree.advance_ne_detour
    (hFree : d.LinkFree)
    {followLast : Bool}
    {parent : Place}
    {target : String}
    {rest : List String} :
    d.advance followLast place names ≠
      .ok (.detour parent target rest) := by
  induction names generalizing place with
  | nil =>
      intro hAdvance
      cases hAdvance
  | cons name names ih =>
      rw [advance]
      split
      · exact ih
      · split
        · exact ih
        · cases hNode : d.node? (place ++ [name]) with
          | none => dsimp only; split <;> simp
          | some node =>
              cases node with
              | file content time => dsimp only; split <;> simp
              | dir time => exact ih
              | link target =>
                  exact absurd hNode (hFree.node?_ne _ _)

theorem LinkFree.follow_eq_ok_iff
    (hFree : d.LinkFree)
    {followLast : Bool}
    {links : Nat}
    {found : Found} :
    d.follow followLast links place names = .ok found ↔
      d.advance followLast place names =
        .ok (.arrived found) := by
  unfold follow
  cases hAdvance : d.advance followLast place names with
  | error fault => simp
  | ok progress =>
      cases progress with
      | arrived other => simp
      | detour parent target rest =>
          exact absurd hAdvance hFree.advance_ne_detour

/- A search that ends at a directory goes through directories. -/
theorem approach_of_advance
    {progress : Progress}
    {way : Approach}
    (hAdvance : d.advance true place names = .ok progress)
    (hWay : progress.way? = some way) :
    d.approach place names = .ok way := by
  induction names generalizing place with
  | nil =>
      injection hAdvance with hAdvance
      rw [← hAdvance] at hWay
      unfold Progress.way? at hWay
      split at hWay
      · next hArrived =>
          injection hArrived with hArrived
          injection hArrived with hGoal hNode
          cases hWay
          rw [← hGoal]
          rfl
      · cases hWay
      · next hDetour => cases hDetour
  | cons name rest ih =>
      rw [advance] at hAdvance
      rw [approach]
      split at hAdvance
      · next hVoid =>
          rw [if_pos hVoid]
          exact ih hAdvance
      · next hVoid =>
          rw [if_neg hVoid]
          split at hAdvance
          · next hUp =>
              rw [if_pos hUp]
              exact ih hAdvance
          · next hUp =>
              rw [if_neg hUp]
              cases hNode : d.node? (place ++ [name]) with
              | none =>
                  rw [hNode] at hAdvance
                  dsimp only at hAdvance
                  split at hAdvance <;> cases hAdvance
                  cases hWay
              | some node =>
                  rw [hNode] at hAdvance
                  cases node with
                  | file content time =>
                      dsimp only at hAdvance
                      split at hAdvance <;> cases hAdvance
                      cases hWay
                  | dir time => exact ih hAdvance
                  | link target =>
                      simp only [Bool.not_true, Bool.and_false,
                        Bool.false_eq_true, if_false] at hAdvance
                      cases hAdvance
                      cases hWay
                      rfl

/- A directory that a search ends at can be gone through. -/
theorem reach_of_follow
    {links : Nat}
    {mtime : Int}
    (hFollow :
      d.follow true links place names =
        .ok ⟨goal, some (.dir mtime)⟩) :
    d.reach links place names = .ok goal := by
  induction links generalizing place names with
  | zero =>
      unfold follow at hFollow
      unfold reach
      split at hFollow
      · cases hFollow
      · next hAdvance =>
          cases hFollow
          rw [approach_of_advance hAdvance rfl]
      · cases hFollow
  | succ links ih =>
      unfold follow at hFollow
      unfold reach
      split at hFollow
      · cases hFollow
      · next hAdvance =>
          cases hFollow
          rw [approach_of_advance hAdvance rfl]
      · next hAdvance =>
          rw [approach_of_advance hAdvance rfl]
          exact ih hFollow

/- What is in a directory lies directly below its place. -/
theorem locate_child
    {text name : String}
    {mtime : Int}
    (hLocate :
      d.locate true text = .ok ⟨place, some (.dir mtime)⟩)
    (hName : IsName name)
    (hLink :
      ∀ target, d.node? (place ++ [name]) ≠
        some (.link target)) :
    d.locate true (Path.child text name) =
      .ok ⟨place ++ [name], d.node? (place ++ [name])⟩ := by
  have hSome : text ≠ "" := by
    rintro rfl
    cases hLocate
  rcases Path.exists_names_child hSome hName with
    ⟨front, hNames, hThins⟩
  unfold locate at hLocate ⊢
  rw [if_neg (by simpa using hSome)] at hLocate
  rw [if_neg (by simpa using Path.child_ne_empty text hName),
    Path.isRooted_child_of_isName hSome hName, hNames]
  have hReach := reach_of_follow (follow_of_thins hThins hLocate)
  dsimp only
  rw [follow_append_last hName.1, hReach]
  · rfl
  · intro _ other target hOther
    rw [hReach] at hOther
    cases hOther
    exact hLink target

/-
  On a disk without links, plain names lead to something only
  through directories.
-/
theorem advance_through
    (hFree : d.LinkFree)
    {node : Node}
    (hNames : ∀ name ∈ names, IsName name)
    (hAdvance :
      d.advance true place names =
        .ok (.arrived ⟨goal, some node⟩)) :
    goal = place ++ names ∧
      ∀ front rest,
        front ≠ [] →
          rest ≠ [] →
            names = front ++ rest →
              ∃ mtime, d.node? (place ++ front) =
                some (.dir mtime) := by
  induction names generalizing place with
  | nil =>
      injection hAdvance with hAdvance
      injection hAdvance with hAdvance
      injection hAdvance with hGoal hNode
      refine ⟨by rw [← hGoal, List.append_nil], ?_⟩
      intro front rest hSome _ hNone
      exact absurd (List.append_eq_nil_iff.mp hNone.symm).1 hSome
  | cons name names ih =>
      rw [List.forall_mem_cons] at hNames
      rcases hNames with ⟨hName, hNames⟩
      rw [advance, if_neg (by simp [hName.1.1]),
        if_neg hName.1.2] at hAdvance
      cases hNode : d.node? (place ++ [name]) with
      | none =>
          rw [hNode] at hAdvance
          dsimp only at hAdvance
          split at hAdvance <;> cases hAdvance
      | some found =>
          rw [hNode] at hAdvance
          cases found with
          | link target =>
              exact absurd hNode (hFree.node?_ne _ _)
          | file content time =>
              dsimp only at hAdvance
              split at hAdvance
              · next hLast =>
                  rw [List.isEmpty_iff] at hLast
                  subst hLast
                  cases hAdvance
                  refine ⟨rfl, ?_⟩
                  intro front rest hSome hMore hSplit
                  have hLength := congrArg List.length hSplit
                  have hFront := List.length_pos_of_ne_nil hSome
                  have hRest := List.length_pos_of_ne_nil hMore
                  rw [List.length_append, List.length_singleton]
                    at hLength
                  omega
              · cases hAdvance
          | dir time =>
              rcases ih hNames hAdvance with ⟨hGoal, hRest⟩
              refine ⟨by rw [hGoal, ← List.append_cons], ?_⟩
              intro front rest hSome hMore hSplit
              cases front with
              | nil => exact absurd rfl hSome
              | cons first front =>
                  rw [List.cons_append, List.cons.injEq] at hSplit
                  rcases hSplit with ⟨rfl, hSplit⟩
                  by_cases hFront : front = []
                  · exact ⟨time, by rw [hFront, hNode]⟩
                  · rw [List.append_cons]
                    exact hRest front rest hFront hMore hSplit

end Disk

end SymbolAtlas
