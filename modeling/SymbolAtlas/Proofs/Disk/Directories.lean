import SymbolAtlas.Desk
import SymbolAtlas.Proofs.Disk.Approach
import SymbolAtlas.Proofs.Work

/-
  Directories that are there.

  A path that leads through directories only also leads to
  something when its last name is not followed. A directory that
  is to be made is therefore left alone if it is there already,
  and so is everything else.

  Key definitions:
    * `Disk.startOf`, `Disk.HasDirectory`
  Key theorems:
    * `Disk.HasDirectory.of_sameWays`
    * `Disk.follow_of_reach`
    * `Disk.HasDirectory.makeDirectories_eq`
-/

------------------------------------------------------------
-- Paths of Directories
------------------------------------------------------------

namespace SymbolAtlas

namespace Disk

/- The place where the search for a path starts. -/
def startOf (d : Disk) (path : String) : Place :=
  if (Route.ofText path).isRooted then [] else d.cwd

/- The path leads to the directory at a place. -/
structure HasDirectory
    (d : Disk)
    (path : String)
    (place : Place) : Prop where
  start : d.Grounded (d.startOf path)
  reached :
    d.reach linkLimit (d.startOf path) (Route.ofText path).names =
      .ok place

variable {d e : Disk} {path : String} {place : Place}

/- Searches start at a directory if the working one exists. -/
theorem grounded_startOf
    (hCwd : d.Grounded d.cwd)
    (path : String) :
    d.Grounded (d.startOf path) := by
  unfold startOf
  split
  · exact grounded_nil d
  · exact hCwd

/- Files may come and go. -/
theorem HasDirectory.of_sameWays
    (hHas : d.HasDirectory path place)
    (hSame : d.SameWays e) :
    e.HasDirectory path place := by
  have hStart : e.startOf path = d.startOf path := by
    unfold startOf
    rw [hSame.cwd]
  refine ⟨?_, ?_⟩
  · rw [hStart]
    exact hHas.start.of_sameWays hSame
  · rw [hStart]
    exact (reach_of_sameWays hSame hHas.start hHas.reached).1

theorem SameWays.refl
    (d : Disk) :
    SameWays d d :=
  ⟨rfl, fun _ _ _ => rfl⟩

theorem SameWays.trans
    {f : Disk}
    (hSame : d.SameWays e)
    (hOther : e.SameWays f) :
    d.SameWays f where
  cwd := hOther.cwd.trans hSame.cwd
  ways above name hGrounded := by
    have hAbove := hGrounded.of_sameWays hSame
    exact (hOther.ways above name hAbove).trans
      (hSame.ways above name hGrounded)

/- A directory that is reached lies below directories only. -/
theorem HasDirectory.grounded
    (hHas : d.HasDirectory path place) :
    d.Grounded place :=
  (reach_of_sameWays (.refl d) hHas.start hHas.reached).2

end Disk

end SymbolAtlas

------------------------------------------------------------
-- Something Is There
------------------------------------------------------------

namespace SymbolAtlas

namespace Disk

variable {d : Disk} {place : Place}

/- A search that comes to a directory ends there. -/
theorem advance_of_reached
    {names : List String}
    {goal : Place}
    (hGrounded : d.Grounded place)
    (hWay : d.approach place names = .ok (.reached goal))
    (followLast : Bool) :
    d.advance followLast place names =
      .ok (.arrived ⟨goal, d.node? goal⟩) := by
  induction names generalizing place with
  | nil =>
      cases hWay
      rfl
  | cons name rest ih =>
      rw [approach] at hWay
      rw [advance]
      split at hWay
      · next hVoid =>
          rw [if_pos hVoid]
          exact ih hGrounded hWay
      · next hVoid =>
          rw [if_neg hVoid]
          split at hWay
          · next hUp =>
              rw [if_pos hUp]
              exact ih (hGrounded.of_above
                (List.dropLast_prefix place)) hWay
          · next hUp =>
              rw [if_neg hUp]
              cases hNode : d.node? (place ++ [name]) with
              | none =>
                  rw [hNode] at hWay
                  cases hWay
              | some node =>
                  rw [hNode] at hWay
                  cases node with
                  | file content mtime => cases hWay
                  | link target => cases hWay
                  | dir mtime =>
                      exact ih (grounded_concat hGrounded
                        (by rw [hNode]; rfl)) hWay

/- A search that comes to a link follows it or ends there. -/
theorem advance_of_detour
    {names rest : List String}
    {parent : Place}
    {target : String}
    (hWay : d.approach place names =
      .ok (.detour parent target rest))
    (followLast : Bool) :
    d.advance followLast place names =
        .ok (.detour parent target rest) ∨
      followLast = false ∧
        ∃ last,
          d.advance followLast place names =
            .ok (.arrived ⟨last, some (.link target)⟩) := by
  induction names generalizing place with
  | nil => cases hWay
  | cons name names ih =>
      rw [approach] at hWay
      rw [advance]
      split at hWay
      · next hVoid =>
          rw [if_pos hVoid]
          exact ih hWay
      · next hVoid =>
          rw [if_neg hVoid]
          split at hWay
          · next hUp =>
              rw [if_pos hUp]
              exact ih hWay
          · next hUp =>
              rw [if_neg hUp]
              cases hNode : d.node? (place ++ [name]) with
              | none =>
                  rw [hNode] at hWay
                  cases hWay
              | some node =>
                  rw [hNode] at hWay
                  cases node with
                  | file content mtime => cases hWay
                  | dir mtime => exact ih hWay
                  | link other =>
                      cases hWay
                      dsimp only
                      split
                      · next hLast =>
                          rw [Bool.and_eq_true,
                            Bool.not_eq_true'] at hLast
                          exact Or.inr ⟨hLast.2, _, rfl⟩
                      · exact Or.inl rfl

theorem follow_of_reached
    {links : Nat}
    {names : List String}
    {goal : Place}
    (hGrounded : d.Grounded place)
    (hWay : d.approach place names = .ok (.reached goal))
    (followLast : Bool) :
    ∃ mtime,
      d.follow followLast links place names =
        .ok ⟨goal, some (.dir mtime)⟩ := by
  have hGoal : d.Grounded goal :=
    (approach_of_sameWays (.refl d) hGrounded hWay).2
  have hLast := hGoal goal List.prefix_rfl
  unfold follow
  rw [advance_of_reached hGrounded hWay]
  cases hNode : d.node? goal with
  | none =>
      rw [hNode] at hLast
      cases hLast
  | some node =>
      rw [hNode] at hLast
      cases node with
      | file content mtime => cases hLast
      | link target => cases hLast
      | dir mtime => exact ⟨mtime, rfl⟩

/-
  Something is where a directory can be reached, and it is the
  directory if links are followed.
-/
theorem follow_of_reach
    {links : Nat}
    {names : List String}
    {goal : Place}
    (hGrounded : d.Grounded place)
    (hReach : d.reach links place names = .ok goal)
    (followLast : Bool) :
    ∃ last node,
      d.follow followLast links place names =
          .ok ⟨last, some node⟩ ∧
        (followLast = true → ∃ mtime, node = .dir mtime) := by
  have hReached :
      ∀ {links place names goal}, d.Grounded place →
        d.approach place names = .ok (.reached goal) →
        ∃ last node,
          d.follow followLast links place names =
              .ok ⟨last, some node⟩ ∧
            (followLast = true → ∃ mtime, node = .dir mtime) := by
    intro links place names goal hGrounded hWay
    rcases follow_of_reached hGrounded hWay followLast with
      ⟨mtime, hFollow⟩
    exact ⟨goal, .dir mtime, hFollow, fun _ => ⟨mtime, rfl⟩⟩
  induction links generalizing place names with
  | zero =>
      unfold reach at hReach
      cases hWay : d.approach place names with
      | error fault =>
          rw [hWay] at hReach
          cases hReach
      | ok way =>
          cases way with
          | reached last => exact hReached hGrounded hWay
          | detour parent target rest =>
              rw [hWay] at hReach
              cases hReach
  | succ links ih =>
      unfold reach at hReach
      cases hWay : d.approach place names with
      | error fault =>
          rw [hWay] at hReach
          cases hReach
      | ok way =>
          cases way with
          | reached last => exact hReached hGrounded hWay
          | detour parent target rest =>
              have hParent : d.Grounded parent :=
                (approach_of_sameWays (.refl d) hGrounded hWay).2
              rw [hWay] at hReach
              unfold follow
              rcases advance_of_detour hWay followLast with
                hDetour | ⟨rfl, last, hLink⟩
              · rw [hDetour]
                dsimp only at hReach ⊢
                apply ih _ hReach
                split
                · exact grounded_nil d
                · exact hParent
              · rw [hLink]
                refine ⟨last, _, rfl, ?_⟩
                intro hTrue
                cases hTrue

end Disk

end SymbolAtlas

------------------------------------------------------------
-- Nothing Is Made
------------------------------------------------------------

namespace SymbolAtlas

namespace Disk

variable {d : Disk} {path : String} {place : Place}

/- Something is at the path of a directory. -/
theorem HasDirectory.locate_normal
    (hHas : d.HasDirectory path place)
    (followLast : Bool) :
    ∃ last node,
      d.locate followLast (Path.normal path) =
          .ok ⟨last, some node⟩ ∧
        (followLast = true → ∃ mtime, node = .dir mtime) := by
  unfold Path.normal
  rw [locate_text (Route.isRead_ofText path)]
  exact follow_of_reach hHas.start hHas.reached followLast

theorem HasDirectory.isDirectory_normal
    (hHas : d.HasDirectory path place) :
    d.isDirectory (Path.normal path) = true := by
  rcases hHas.locate_normal true with
    ⟨last, node, hLocate, hNode⟩
  rcases hNode rfl with ⟨mtime, rfl⟩
  unfold isDirectory stat
  rw [hLocate]
  rfl

/- A directory that is there is not made. -/
theorem HasDirectory.makeDirectories_eq
    (hHas : d.HasDirectory path place) :
    d.makeDirectories (Path.normal path) = (d, none) := by
  rcases hHas.locate_normal false with ⟨last, node, hLocate, -⟩
  have hRoute :
      Route.ofText (Path.normal path) = Route.ofText path :=
    (Route.isRead_ofText path).ofText_text
  have hText :
      (Route.mk (Route.ofText path).root
          (Route.ofText path).names.reverse.reverse).text =
        Path.normal path := by
    rw [List.reverse_reverse]
    rfl
  have hMake :
      d.makeDirectory (Path.normal path) =
        .error .alreadyThere := by
    unfold makeDirectory
    rw [hLocate]
  unfold makeDirectories
  rw [hRoute]
  dsimp only
  unfold makeRoute
  dsimp only
  rw [hText, hMake]
  dsimp only
  rw [if_pos hHas.isDirectory_normal]

end Disk

/- A directory that is there is left alone. -/
theorem Desk.ensureDirectory_eq
    {desk : Desk}
    {path : String}
    {place : Place}
    (hHas : desk.disk.HasDirectory path place)
    (mode : Nat) :
    ensureDirectory path mode desk =
      .ok (Path.normal path) desk := by
  unfold ensureDirectory
  simp only [bind, EStateM.bind, Work.get_eq,
    hHas.makeDirectories_eq]
  rfl

end SymbolAtlas
