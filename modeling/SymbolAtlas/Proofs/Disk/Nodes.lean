import SymbolAtlas.Disk.Edit

/-
  The nodes of a disk after a change.

  A change concerns one place, or the tree below it. At every
  other place the disk has the node that it had before.

  Key theorems:
    * `Disk.node?_put`, `Disk.node?_drop`
    * `Disk.node?_moveTree_of_apart`
    * `Disk.node?_moveTree_target`
    * `Disk.node?_moveTree_source`
-/

------------------------------------------------------------
-- Tables
------------------------------------------------------------

namespace SymbolAtlas

namespace Disk

theorem lookup_filter
    (keep : Place → Bool)
    (nodes : List (Place × Node))
    (place : Place) :
    (nodes.filter (keep ·.1)).lookup place =
      if keep place then nodes.lookup place else none := by
  induction nodes with
  | nil => simp
  | cons first rest ih =>
      obtain ⟨other, node⟩ := first
      by_cases hSame : place = other
      · subst hSame
        cases hKeep : keep place with
        | true => simp [hKeep]
        | false =>
            rw [List.filter_cons_of_neg (by simp [hKeep]), ih]
            simp [hKeep]
      · have hOther : (place == other) = false := by
          simpa using hSame
        rw [List.lookup_cons, hOther]
        cases hKeep : keep other with
        | true =>
            rw [List.filter_cons_of_pos (by simpa using hKeep),
              List.lookup_cons, hOther]
            exact ih
        | false =>
            rw [List.filter_cons_of_neg (by simp [hKeep])]
            exact ih

/- A place is found where the only one that is moved to it was. -/
theorem lookup_map_place
    {move : Place → Place}
    {nodes : List (Place × Node)}
    {place origin : Place}
    (hOrigin :
      ∀ other ∈ nodes, move other.1 = place ↔ other.1 = origin) :
    (nodes.map fun (other, node) =>
        (move other, node)).lookup place =
      nodes.lookup origin := by
  induction nodes with
  | nil => rfl
  | cons first rest ih =>
      obtain ⟨other, node⟩ := first
      have hFirst := hOrigin (other, node) List.mem_cons_self
      have hRest := ih fun item hItem =>
        hOrigin item (List.mem_cons_of_mem _ hItem)
      rw [List.map_cons, List.lookup_cons, List.lookup_cons,
        hRest]
      by_cases hSame : other = origin
      · have hPlace : move other = place := hFirst.mpr hSame
        rw [hPlace, hSame, beq_self_eq_true, beq_self_eq_true]
      · have hNot : (place == move other) = false := by
          rw [beq_eq_false_iff_ne]
          exact fun hMoved => hSame (hFirst.mp hMoved.symm)
        have hOther : (origin == other) = false := by
          rw [beq_eq_false_iff_ne]
          exact Ne.symm hSame
        rw [hNot, hOther]

end Disk

end SymbolAtlas

------------------------------------------------------------
-- Single Places
------------------------------------------------------------

namespace SymbolAtlas

namespace Disk

variable {d : Disk} {place : Place}

theorem node?_of_ne_nil
    (hPlace : place ≠ []) :
    d.node? place = d.nodes.lookup place := by
  unfold node?
  rw [if_neg (by simpa using hPlace)]

theorem node?_drop
    (hPlace : place ≠ [])
    (other : Place) :
    (d.drop place).node? other =
      if other = place then none else d.node? other := by
  unfold node? drop
  dsimp only
  rw [lookup_filter (· != place)]
  by_cases hSame : other = place
  · simp [hSame, hPlace]
  · simp [hSame]

theorem node?_put
    (hPlace : place ≠ [])
    (node : Node)
    (other : Place) :
    (d.put place node).node? other =
      if other = place then some node else d.node? other := by
  have hDrop := node?_drop (d := d) hPlace other
  unfold node? at hDrop ⊢
  unfold put
  dsimp only
  rw [List.lookup_append]
  by_cases hRoot : other.isEmpty
  · have hOther : other ≠ place := by
      rintro rfl
      exact hPlace (List.isEmpty_iff.mp hRoot)
    simp [hRoot, hOther]
  · simp only [hRoot, Bool.false_eq_true, if_false] at hDrop ⊢
    rw [hDrop]
    by_cases hSame : other = place
    · simp [hSame]
    · have hBeq : (other == place) = false := by
        simpa using hSame
      simp [hSame, List.lookup_cons, hBeq]

end Disk

end SymbolAtlas

------------------------------------------------------------
-- Trees
------------------------------------------------------------

namespace SymbolAtlas

namespace Disk

variable {d : Disk} {source target : Place}

/- A tree is not moved into itself, nor onto a tree it is in. -/
structure Apart (source target : Place) : Prop where
  forth : ¬ source <+: target
  back : ¬ target <+: source

theorem movedPlace_append
    (source target rest : Place) :
    movedPlace source target (source ++ rest) =
      target ++ rest := by
  unfold movedPlace
  rw [if_pos (by simp), List.drop_left]

theorem movedPlace_of_not_below
    {place : Place}
    (hPlace : ¬ source <+: place) :
    movedPlace source target place = place := by
  unfold movedPlace
  rw [if_neg (by simpa using hPlace)]

/- Two places with one below them are not apart. -/
theorem Apart.not_below
    (hApart : Apart source target)
    {place : Place}
    (hSource : source <+: place) :
    ¬ target <+: place := by
  intro hTarget
  rcases List.prefix_or_prefix_of_prefix hSource hTarget with
    hForth | hBack
  · exact hApart.forth hForth
  · exact hApart.back hBack

/- Each place in the table after a tree was moved. -/
theorem node?_moveTree
    {place origin : Place}
    (hPlace : place ≠ [])
    (hOrigin : origin ≠ [])
    (hKept : ¬ target <+: origin)
    (hMoves :
      ∀ other, ¬ target <+: other →
        (movedPlace source target other = place ↔
          other = origin)) :
    (d.moveTree source target).node? place = d.node? origin := by
  rw [node?_of_ne_nil hPlace, node?_of_ne_nil hOrigin]
  unfold moveTree dropTree
  dsimp only
  have hOthers :
      ∀ other ∈ d.nodes.filter (!target.isPrefixOf ·.1),
        movedPlace source target other.1 = place ↔
          other.1 = origin := by
    intro other hOther
    apply hMoves
    have hKeeps := (List.mem_filter.mp hOther).2
    rw [Bool.not_eq_true', Bool.eq_false_iff] at hKeeps
    rw [← List.isPrefixOf_iff_prefix]
    exact hKeeps
  rw [lookup_map_place hOthers,
    lookup_filter fun other => !target.isPrefixOf other]
  rw [← List.isPrefixOf_iff_prefix, Bool.not_eq_true] at hKept
  rw [hKept]
  rfl

/- What lies below neither place stays. -/
theorem node?_moveTree_of_apart
    {place : Place}
    (hSource : ¬ source <+: place)
    (hTarget : ¬ target <+: place) :
    (d.moveTree source target).node? place = d.node? place := by
  by_cases hRoot : place = []
  · subst hRoot
    rfl
  · apply node?_moveTree hRoot hRoot hTarget
    intro other hOther
    by_cases hBelow : source <+: other
    · rcases hBelow with ⟨rest, rfl⟩
      rw [movedPlace_append]
      constructor
      · intro hMoved
        exact absurd ⟨rest, hMoved⟩ hTarget
      · intro hSame
        exact absurd ⟨rest, hSame⟩ hSource
    · rw [movedPlace_of_not_below hBelow]

/- What was at the source or below it is at the target. -/
theorem node?_moveTree_below_target
    (hApart : Apart source target)
    (rest : Place) :
    (d.moveTree source target).node? (target ++ rest) =
      d.node? (source ++ rest) := by
  have hTarget : target ≠ [] := by
    rintro rfl
    exact hApart.back List.nil_prefix
  have hSource : source ≠ [] := by
    rintro rfl
    exact hApart.forth List.nil_prefix
  have hKept : ¬ target <+: source ++ rest :=
    hApart.not_below (List.prefix_append source rest)
  apply node?_moveTree (by simp [hTarget]) (by simp [hSource])
    hKept
  intro other hOther
  by_cases hBelow : source <+: other
  · rcases hBelow with ⟨more, rfl⟩
    rw [movedPlace_append]
    simp
  · rw [movedPlace_of_not_below hBelow]
    constructor
    · rintro rfl
      exact absurd (List.prefix_append target rest) hOther
    · rintro rfl
      exact absurd (List.prefix_append source rest) hBelow

/- The node at the source is at the target. -/
theorem node?_moveTree_target
    (hApart : Apart source target) :
    (d.moveTree source target).node? target =
      d.node? source := by
  simpa using node?_moveTree_below_target hApart []

/- Nothing is left at the source or below it. -/
theorem node?_moveTree_below_source
    (hApart : Apart source target)
    (rest : Place) :
    (d.moveTree source target).node? (source ++ rest) = none := by
  have hSource : source ++ rest ≠ [] := by
    intro hNil
    have hNone : source = [] := (List.append_eq_nil_iff.mp hNil).1
    subst hNone
    exact hApart.forth List.nil_prefix
  rw [node?_of_ne_nil hSource]
  unfold moveTree
  dsimp only
  rw [List.lookup_eq_none_iff]
  intro other hOther
  rcases List.mem_map.mp hOther with ⟨item, -, rfl⟩
  have hNe : source ++ rest ≠ movedPlace source target item.1 := by
    by_cases hBelow : source <+: item.1
    · rcases hBelow with ⟨more, hMore⟩
      rw [← hMore, movedPlace_append]
      intro hSame
      apply hApart.not_below (List.prefix_append source rest)
      rw [hSame]
      exact List.prefix_append target more
    · rw [movedPlace_of_not_below hBelow]
      intro hSame
      apply hBelow
      rw [← hSame]
      exact List.prefix_append source rest
  simpa using hNe

/- Nothing is left at the source. -/
theorem node?_moveTree_source
    (hApart : Apart source target) :
    (d.moveTree source target).node? source = none := by
  simpa using node?_moveTree_below_source hApart []

end Disk

end SymbolAtlas
