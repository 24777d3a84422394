import Mathlib.Data.Finset.Card
import Mathlib.Tactic.Ring
import SymbolAtlas.Proofs.Disk.Leading
import SymbolAtlas.Proofs.Search.Trails

/-
  Walks do not run out of levels.

  Every link on the way to a directory counts against the limit
  of one search, and between two links the way goes down the
  tree. So a trail that still leads to a directory is shorter
  than the bound of a walk, even if the links on it lead back.

  Key theorems:
    * `Disk.IsTree.length_le`, `Disk.Leads.length_add_le`
    * `Search.length_lt_depthBound`
-/

------------------------------------------------------------
-- Names Behind a Base
------------------------------------------------------------

namespace SymbolAtlas

namespace Path

/- Names that are not void are still there after thinning. -/
theorem Thins.exists_append
    {front back kept : List String}
    (hThins : Thins (front ++ back) kept)
    (hBack : ∀ name ∈ back, Route.isVoid name = false) :
    ∃ first, kept = first ++ back := by
  induction front generalizing kept with
  | nil =>
      refine ⟨[], ?_⟩
      rw [List.nil_append] at hThins ⊢
      induction back generalizing kept with
      | nil =>
          cases hThins
          rfl
      | cons name rest ih =>
          cases hThins with
          | keep _ hRest =>
              rw [ih (fun other hOther =>
                hBack other (List.mem_cons_of_mem _ hOther)) hRest]
          | drop hVoid _ =>
              rw [hBack name List.mem_cons_self] at hVoid
              cases hVoid
  | cons name rest ih =>
      cases hThins with
      | keep _ hRest =>
          rcases ih hRest with ⟨first, rfl⟩
          exact ⟨name :: first, rfl⟩
      | drop _ hRest => exact ih hRest

theorem below_ne_empty
    {base : String}
    (hSome : base ≠ "")
    {trail : List String}
    (hTrail : ∀ step ∈ trail, Disk.IsName step) :
    below base trail ≠ "" := by
  induction trail using List.reverseRecOn with
  | nil => exact hSome
  | append_singleton trail name _ =>
      rw [below_concat]
      exact child_ne_empty _ (hTrail name (by simp))

/- The names of a trail stand behind those of its base. -/
theorem exists_names_below
    {base : String}
    (hSome : base ≠ "")
    {trail : List String}
    (hTrail : ∀ step ∈ trail, Disk.IsName step) :
    ∃ front, names (below base trail) = front ++ trail := by
  induction trail using List.reverseRecOn with
  | nil => exact ⟨names base, (List.append_nil _).symm⟩
  | append_singleton trail name ih =>
      rw [List.forall_mem_append, List.forall_mem_singleton]
        at hTrail
      rcases ih hTrail.1 with ⟨front, hFront⟩
      rcases exists_names_child (below_ne_empty hSome hTrail.1)
          hTrail.2 with
        ⟨kept, hKept, hThins⟩
      rw [hFront] at hThins
      rcases hThins.exists_append fun step hStep =>
          (hTrail.1 step hStep).1.1 with
        ⟨first, rfl⟩
      exact ⟨first, by rw [below_concat, hKept, List.append_assoc]⟩

end Path

end SymbolAtlas

------------------------------------------------------------
-- Ways on a Tree
------------------------------------------------------------

namespace SymbolAtlas

namespace Disk

variable {d : Disk}

/- All places above a node are taken, and they are different. -/
theorem IsTree.length_le
    (hTree : d.IsTree)
    {place : Place}
    {node : Node}
    (hNode : d.node? place = some node) :
    place.length ≤ d.nodes.length := by
  have hTaken (n : Nat) (hLess : n < place.length) :
      place.take (n + 1) ∈ d.nodes.map Prod.fst := by
    have hSome : place.take (n + 1) ≠ [] := by
      intro hNone
      have hLength := congrArg List.length hNone
      simp only [List.length_take, List.length_nil] at hLength
      omega
    have hThere :
        ∃ other, d.node? (place.take (n + 1)) = some other := by
      by_cases hRest : place.drop (n + 1) = []
      · refine ⟨node, ?_⟩
        rw [← hNode]
        congr 1
        have hWhole := List.take_append_drop (n + 1) place
        rwa [hRest, List.append_nil] at hWhole
      · have hWhole :
            d.node? (place.take (n + 1) ++ place.drop (n + 1)) ≠
              none := by
          rw [List.take_append_drop, hNode]
          simp
        have hWay :=
          hTree.descends_above hWhole hRest
        rcases dir_of_descends hWay with ⟨mtime, hDir⟩
        exact ⟨_, hDir⟩
    rcases hThere with ⟨other, hOther⟩
    exact List.mem_map.mpr
      ⟨_, mem_nodes_of_node? hSome hOther, rfl⟩
  have hMaps :
      Set.MapsTo (fun n => place.take (n + 1))
        (Finset.range place.length)
        (d.nodes.map Prod.fst).toFinset := by
    intro n hLess
    rw [Finset.mem_coe, Finset.mem_range] at hLess
    rw [Finset.mem_coe, List.mem_toFinset]
    exact hTaken n hLess
  have hInjective :
      Set.InjOn (fun n => place.take (n + 1))
        (Finset.range place.length) := by
    intro m hM n hN hSame
    rw [Finset.mem_coe, Finset.mem_range] at hM hN
    have hLength := congrArg List.length hSame
    simp only [List.length_take] at hLength
    omega
  calc
    place.length
      = (Finset.range place.length).card :=
          (Finset.card_range _).symm
    _ ≤ (d.nodes.map Prod.fst).toFinset.card :=
          Finset.card_le_card_of_injOn _ hMaps hInjective
    _ ≤ (d.nodes.map Prod.fst).length := List.toFinset_card_le _
    _ = d.nodes.length := List.length_map _

/-
  Names that are followed go down the tree, or they are links.
  The induction is on the way that they lead.
-/
theorem Leads.length_add_le
    (hTree : d.IsTree)
    {start goal : Place}
    {names : List String}
    {links : Nat}
    (hNames : ∀ name ∈ names, IsName name)
    (hLeads : d.Leads start names goal links) :
    names.length + start.length ≤
      goal.length + links * (d.nodes.length + 1) := by
  induction hLeads with
  | nil start => simp
  | void hVoid _ _ =>
      rw [(hNames _ List.mem_cons_self).1.1] at hVoid
      cases hVoid
  | up _ _ => exact absurd rfl (hNames _ List.mem_cons_self).1.2
  | step _ _ _ ih =>
      have hRest := ih fun name hName =>
        hNames name (List.mem_cons_of_mem _ hName)
      rw [List.length_append, List.length_singleton] at hRest
      rw [List.length_cons]
      omega
  | @turn start middle goal name target rest inside links hName
      hNode hTarget hRest ihTarget ihRest =>
      have hBehind := ihRest fun name hName =>
        hNames name (List.mem_cons_of_mem _ hName)
      have hBefore := hTree.length_le hNode
      rw [List.length_append, List.length_singleton] at hBefore
      have hSum :
          (inside + links + 1) * (d.nodes.length + 1) =
            inside * (d.nodes.length + 1) +
              links * (d.nodes.length + 1) +
                (d.nodes.length + 1) := by
        ring
      rw [List.length_cons, hSum]
      omega

end Disk

namespace Search

/- A trail to a directory is shorter than a walk may be. -/
theorem length_lt_depthBound
    {d : Disk}
    (hTree : d.IsTree)
    {base : String}
    (hSome : base ≠ "")
    {trail : List String}
    (hTrail : ∀ step ∈ trail, Disk.IsName step)
    (hDirectory : d.isDirectory (Path.below base trail) = true) :
    trail.length < Walker.depthBound d := by
  rcases Path.exists_names_below hSome hTrail with ⟨front, hNames⟩
  rcases Disk.isDirectory_iff.mp hDirectory with
    ⟨place, mtime, hLocate⟩
  have hNode := Disk.node_of_locate hLocate
  unfold Disk.locate at hLocate
  split at hLocate
  · cases hLocate
  rw [hNames] at hLocate
  rcases Disk.leads_of_follow hLocate with ⟨links, hLinks, hLeads⟩
  rcases hLeads.split with
    ⟨middle, first, second, -, hSecond, hSum⟩
  have hLength := hSecond.length_add_le hTree hTrail
  have hPlace := hTree.length_le hNode.symm
  have hBound :
      second * (d.nodes.length + 1) ≤
        Disk.linkLimit * (d.nodes.length + 1) :=
    Nat.mul_le_mul_right _ (by omega)
  unfold Walker.depthBound
  have hTotal :
      (Disk.linkLimit + 2) * (d.nodes.length + 2) =
        Disk.linkLimit * (d.nodes.length + 1) + Disk.linkLimit +
          2 * (d.nodes.length + 2) := by
    ring
  rw [hTotal]
  dsimp only at hLength hPlace
  omega

end Search

end SymbolAtlas
