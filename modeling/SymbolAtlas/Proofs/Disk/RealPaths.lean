import SymbolAtlas.Proofs.Disk.Directories
import SymbolAtlas.Proofs.Disk.LinkFree
import SymbolAtlas.Proofs.Path.Rooted
import SymbolAtlas.Settings.Basic

/-
  Real paths do not depend on files.

  The real path of a text is found by opening links. A file that
  is written, or that takes the place of another one, is in no
  way and no link, so all real paths stay what they were.

  Key definitions:
    * `Disk.IsTree`, nodes lie in directories
    * `Disk.SameLinks`, disks with the same links
  Key theorems:
    * `Disk.IsTree.put`, `Disk.IsTree.moveTree`
    * `Disk.SameLinks.resolve_eq`
    * `Settings.resolvePath_of_sameLinks`
-/

------------------------------------------------------------
-- Trees
------------------------------------------------------------

namespace SymbolAtlas

namespace Disk

/- No place is taken twice, and every node is in a directory. -/
structure IsTree (d : Disk) : Prop where
  places : (d.nodes.map Prod.fst).Nodup
  parents :
    ∀ place name,
      d.node? (place ++ [name]) ≠ none →
      wayAt (d.node? place) = .descends

variable {d e : Disk} {place : Place} {name : String}

/- Nothing lies below a place where searches stop. -/
theorem IsTree.below_of_stops
    (hTree : d.IsTree)
    {leaf : Place}
    (hStops : wayAt (d.node? leaf) = .stops)
    {rest : Place}
    (hRest : rest ≠ []) :
    d.node? (leaf ++ rest) = none := by
  induction rest generalizing leaf with
  | nil => exact absurd rfl hRest
  | cons first rest ih =>
      have hFirst : d.node? (leaf ++ [first]) = none := by
        by_contra hSome
        rw [hTree.parents leaf first hSome] at hStops
        cases hStops
      cases rest with
      | nil => exact hFirst
      | cons second others =>
          have hStopped :
              wayAt (d.node? (leaf ++ [first])) = .stops := by
            rw [hFirst]
            rfl
          have hBelow := ih hStopped (List.cons_ne_nil _ _)
          simpa using hBelow

/- A node in the table is the node at its place. -/
theorem IsTree.node?_of_mem
    (hTree : d.IsTree)
    {node : Node}
    (hPlace : place ≠ [])
    (hMem : (place, node) ∈ d.nodes) :
    d.node? place = some node := by
  have hLookup :
      ∀ nodes : List (Place × Node),
        (nodes.map Prod.fst).Nodup → (place, node) ∈ nodes →
        nodes.lookup place = some node := by
    intro nodes hNodup hFound
    induction nodes with
    | nil => cases hFound
    | cons first rest ih =>
        obtain ⟨other, another⟩ := first
        rw [List.map_cons, List.nodup_cons] at hNodup
        rcases List.mem_cons.mp hFound with hFirst | hRest
        · cases hFirst
          simp
        · have hNe : place ≠ other := by
            rintro rfl
            exact hNodup.1 (List.mem_map.mpr ⟨_, hRest, rfl⟩)
          have hBeq : (place == other) = false := by
            simpa using hNe
          rw [List.lookup_cons, hBeq]
          exact ih hNodup.2 hRest
  rw [node?_of_ne_nil hPlace]
  exact hLookup d.nodes hTree.places hMem

/- Only places in the table need to be looked at. -/
theorem isTree_iff :
    d.IsTree ↔
      (d.nodes.map Prod.fst).Nodup ∧
      ∀ entry ∈ d.nodes,
        wayAt (d.node? entry.1.dropLast) = .descends := by
  constructor
  · intro hTree
    refine ⟨hTree.places, ?_⟩
    intro entry hEntry
    obtain ⟨place, node⟩ := entry
    dsimp only
    induction place using List.reverseRecOn with
    | nil => rfl
    | append_singleton above name _ =>
        rw [List.dropLast_concat]
        apply hTree.parents above name
        rw [hTree.node?_of_mem (by simp) hEntry]
        simp
  · rintro ⟨hPlaces, hParents⟩
    refine ⟨hPlaces, ?_⟩
    intro above name hNode
    cases hSome : d.node? (above ++ [name]) with
    | none => exact absurd hSome hNode
    | some node =>
        have hMem := mem_nodes_of_node? (by simp) hSome
        simpa using hParents _ hMem

instance
    (d : Disk) :
    Decidable d.IsTree :=
  decidable_of_iff _ isTree_iff.symm

/- A file may be put into a directory. -/
theorem IsTree.put
    (hTree : d.IsTree)
    (hPlace : wayAt (d.node? place) = .descends)
    (hStops : wayAt (d.node? (place ++ [name])) = .stops)
    (content : ByteArray)
    (mtime : Int) :
    (d.put (place ++ [name]) (.file content mtime)).IsTree := by
  refine ⟨?_, ?_⟩
  · unfold Disk.put drop
    dsimp only
    rw [List.map_append, List.nodup_append]
    refine ⟨?_, List.nodup_singleton _, ?_⟩
    · exact hTree.places.sublist (List.filter_sublist.map _)
    · intro other hOther another hAnother hSame
      rcases List.mem_map.mp hOther with ⟨item, hItem, rfl⟩
      rw [List.map_singleton, List.mem_singleton] at hAnother
      have hKept := (List.mem_filter.mp hItem).2
      rw [hSame, hAnother] at hKept
      simp at hKept
  · intro above other hNode
    rw [node?_put (ne_nil_of_stops hStops)] at hNode ⊢
    have hAbove : wayAt (d.node? above) = .descends := by
      split at hNode
      · next hSame =>
          rw [(List.append_inj' hSame rfl).1]
          exact hPlace
      · exact hTree.parents above other hNode
    rw [if_neg]
    · exact hAbove
    · rintro rfl
      rw [hStops] at hAbove
      cases hAbove

theorem not_below_self
    (place : Place)
    (name : String) :
    ¬ place ++ [name] <+: place := by
  intro hBelow
  have hLength := hBelow.length_le
  rw [List.length_append, List.length_singleton] at hLength
  omega

theorem not_below_of_mem_dropTree
    {target : Place}
    (hMem : place ∈ (d.dropTree target).nodes.map Prod.fst) :
    ¬ target <+: place := by
  rcases List.mem_map.mp hMem with ⟨item, hItem, rfl⟩
  have hKept := (List.mem_filter.mp hItem).2
  rw [Bool.not_eq_true', Bool.eq_false_iff] at hKept
  rw [← List.isPrefixOf_iff_prefix]
  exact hKept

/- Places that are not overwritten stay apart. -/
theorem movedPlace_inj
    {source target first second : Place}
    (hFirst : ¬ target <+: first)
    (hSecond : ¬ target <+: second)
    (hSame :
      movedPlace source target first =
        movedPlace source target second) :
    first = second := by
  by_cases hFrom : source <+: first
  · rcases hFrom with ⟨rest, rfl⟩
    rw [movedPlace_append] at hSame
    by_cases hTo : source <+: second
    · rcases hTo with ⟨more, rfl⟩
      rw [movedPlace_append, List.append_cancel_left_eq] at hSame
      rw [hSame]
    · rw [movedPlace_of_not_below hTo] at hSame
      exact absurd ⟨rest, hSame⟩ hSecond
  · rw [movedPlace_of_not_below hFrom] at hSame
    by_cases hTo : source <+: second
    · rcases hTo with ⟨more, rfl⟩
      rw [movedPlace_append] at hSame
      exact absurd ⟨more, hSame.symm⟩ hFirst
    · rw [movedPlace_of_not_below hTo] at hSame
      exact hSame

/- A file may take the place of another one beside it. -/
theorem IsTree.moveTree
    (hTree : d.IsTree)
    {source target : String}
    (hPlace : wayAt (d.node? place) = .descends)
    (hApart : Apart (place ++ [source]) (place ++ [target]))
    (hSource : wayAt (d.node? (place ++ [source])) = .stops) :
    (d.moveTree (place ++ [source])
      (place ++ [target])).IsTree := by
  refine ⟨?_, ?_⟩
  · have hPlaces :
        (d.moveTree (place ++ [source])
            (place ++ [target])).nodes.map Prod.fst =
          ((d.dropTree (place ++ [target])).nodes.map
            Prod.fst).map
              (movedPlace (place ++ [source])
                (place ++ [target])) := by
      unfold Disk.moveTree
      rw [List.map_map, List.map_map]
      rfl
    rw [hPlaces]
    apply List.Nodup.map_on _
      (hTree.places.sublist (List.filter_sublist.map _))
    intro first hFirst second hSecond hSame
    exact movedPlace_inj (not_below_of_mem_dropTree hFirst)
      (not_below_of_mem_dropTree hSecond) hSame
  · intro above name hNode
    by_cases hFrom : place ++ [source] <+: above ++ [name]
    · rcases hFrom with ⟨rest, hRest⟩
      rw [← hRest, node?_moveTree_below_source hApart] at hNode
      exact absurd rfl hNode
    · have hNotAbove : ¬ place ++ [source] <+: above :=
        fun hAbove =>
          hFrom (hAbove.trans (List.prefix_append above [name]))
      by_cases hTo : place ++ [target] <+: above ++ [name]
      · rcases hTo with ⟨rest, hRest⟩
        cases rest with
        | nil =>
            rw [List.append_nil] at hRest
            have hAbove := (List.append_inj' hRest rfl).1
            subst hAbove
            rw [node?_moveTree_of_apart (not_below_self _ _)
              (not_below_self _ _)]
            exact hPlace
        | cons first others =>
            rw [← hRest, node?_moveTree_below_target hApart,
              hTree.below_of_stops hSource (by simp)] at hNode
            exact absurd rfl hNode
      · have hNotBelow : ¬ place ++ [target] <+: above :=
          fun hAbove =>
            hTo (hAbove.trans (List.prefix_append above [name]))
        rw [node?_moveTree_of_apart hFrom hTo] at hNode
        rw [node?_moveTree_of_apart hNotAbove hNotBelow]
        exact hTree.parents above name hNode

end Disk

end SymbolAtlas

------------------------------------------------------------
-- Links
------------------------------------------------------------

namespace SymbolAtlas

namespace Disk

/- The same links are at the same places. -/
structure SameLinks (d e : Disk) : Prop where
  cwd : e.cwd = d.cwd
  home : e.home = d.home
  links :
    ∀ place target,
      e.node? place = some (.link target) ↔
        d.node? place = some (.link target)
  size : e.linkNames = d.linkNames

variable {d e f : Disk} {place : Place} {name : String}

theorem SameLinks.refl
    (d : Disk) :
    d.SameLinks d :=
  ⟨rfl, rfl, fun _ _ => Iff.rfl, rfl⟩

theorem SameLinks.trans
    (hFirst : d.SameLinks e)
    (hSecond : e.SameLinks f) :
    d.SameLinks f where
  cwd := hSecond.cwd.trans hFirst.cwd
  home := hSecond.home.trans hFirst.home
  links place target :=
    (hSecond.links place target).trans (hFirst.links place target)
  size := hSecond.size.trans hFirst.size

/- The errands that some nodes can add. -/
def errandSum (nodes : List (Place × Node)) : Nat :=
  nodes.foldr (fun entry n => errandCount entry.2 + n) 0

theorem linkNames_eq
    (d : Disk) :
    d.linkNames = errandSum d.nodes :=
  rfl

theorem errandSum_cons
    (entry : Place × Node)
    (rest : List (Place × Node)) :
    errandSum (entry :: rest) =
      errandCount entry.2 + errandSum rest :=
  rfl

theorem errandSum_concat
    (nodes : List (Place × Node))
    (entry : Place × Node) :
    errandSum (nodes ++ [entry]) =
      errandSum nodes + errandCount entry.2 := by
  induction nodes with
  | nil =>
      rw [List.nil_append, errandSum_cons]
      exact Nat.add_comm _ _
  | cons first rest ih =>
      rw [List.cons_append, errandSum_cons, errandSum_cons, ih]
      omega

/- It does not matter where the nodes are. -/
theorem errandSum_map
    (move : Place → Place)
    (nodes : List (Place × Node)) :
    errandSum (nodes.map fun (place, node) => (move place, node)) =
      errandSum nodes := by
  induction nodes with
  | nil => rfl
  | cons first rest ih =>
      rw [List.map_cons, errandSum_cons, errandSum_cons, ih]

theorem errandSum_filter
    {keep : Place × Node → Bool}
    {nodes : List (Place × Node)}
    (hDropped :
      ∀ entry ∈ nodes,
        keep entry = false → errandCount entry.2 = 0) :
    errandSum (nodes.filter keep) = errandSum nodes := by
  induction nodes with
  | nil => rfl
  | cons entry rest ih =>
      have hRest := ih fun other hOther =>
        hDropped other (List.mem_cons_of_mem _ hOther)
      cases hKeep : keep entry with
      | true =>
          rw [List.filter_cons_of_pos hKeep, errandSum_cons,
            errandSum_cons, hRest]
      | false =>
          rw [List.filter_cons_of_neg (by simp [hKeep]),
            errandSum_cons, hRest,
            hDropped entry List.mem_cons_self hKeep, Nat.zero_add]

theorem not_link_of_stops
    (hStops : wayAt (d.node? place) = .stops)
    (target : String) :
    d.node? place ≠ some (.link target) := by
  intro hNode
  rw [hNode] at hStops
  cases hStops

theorem errandCount_of_stops
    {node : Node}
    (hNode : d.node? place = some node)
    (hStops : wayAt (d.node? place) = .stops) :
    errandCount node = 0 := by
  rw [hNode] at hStops
  cases node with
  | file content mtime => rfl
  | dir mtime => rfl
  | link target => cases hStops

/- A file that is put somewhere is no link. -/
theorem sameLinks_put
    (hTree : d.IsTree)
    (hStops : wayAt (d.node? place) = .stops)
    (content : ByteArray)
    (mtime : Int) :
    d.SameLinks (d.put place (.file content mtime)) := by
  have hPlace := ne_nil_of_stops hStops
  refine ⟨rfl, rfl, ?_, ?_⟩
  · intro other target
    rw [node?_put hPlace]
    split
    · next hSame =>
        subst hSame
        exact iff_of_false (by simp)
          (not_link_of_stops hStops target)
    · exact Iff.rfl
  · have hKept :
        errandSum (d.nodes.filter (·.1 != place)) =
          errandSum d.nodes := by
      apply errandSum_filter
      rintro ⟨other, node⟩ hEntry hDropped
      have hSame : other = place := by simpa using hDropped
      subst hSame
      exact errandCount_of_stops
        (hTree.node?_of_mem hPlace hEntry) hStops
    rw [linkNames_eq, linkNames_eq, ← hKept]
    unfold put drop
    rw [errandSum_concat]
    rfl

/- A file that is moved is no link, nor is what it replaces. -/
theorem sameLinks_moveTree
    {source target : Place}
    (hTree : d.IsTree)
    (hApart : Apart source target)
    (hSource : wayAt (d.node? source) = .stops)
    (hTarget : wayAt (d.node? target) = .stops) :
    d.SameLinks (d.moveTree source target) := by
  have hBelow :
      ∀ {leaf rest link}, wayAt (d.node? leaf) = .stops →
        d.node? (leaf ++ rest) ≠ some (.link link) := by
    intro leaf rest link hStops
    cases rest with
    | nil =>
        rw [List.append_nil]
        exact not_link_of_stops hStops link
    | cons first others =>
        rw [hTree.below_of_stops hStops (List.cons_ne_nil _ _)]
        simp
  refine ⟨rfl, rfl, ?_, ?_⟩
  · intro place link
    by_cases hFrom : source <+: place
    · rcases hFrom with ⟨rest, rfl⟩
      rw [node?_moveTree_below_source hApart]
      exact iff_of_false (by simp) (hBelow hSource)
    · by_cases hTo : target <+: place
      · rcases hTo with ⟨rest, rfl⟩
        rw [node?_moveTree_below_target hApart]
        exact iff_of_false (hBelow hSource) (hBelow hTarget)
      · rw [node?_moveTree_of_apart hFrom hTo]
  · have hKept :
        errandSum (d.dropTree target).nodes =
          errandSum d.nodes := by
      apply errandSum_filter
      rintro ⟨other, node⟩ hEntry hDropped
      have hPrefix : target <+: other := by simpa using hDropped
      rcases hPrefix with ⟨rest, rfl⟩
      have hPlace : target ++ rest ≠ [] := by
        simp [ne_nil_of_stops hTarget]
      have hNode := hTree.node?_of_mem hPlace hEntry
      cases node with
      | file content mtime => rfl
      | dir mtime => rfl
      | link link => exact absurd hNode (hBelow hTarget)
    rw [linkNames_eq, linkNames_eq, ← hKept]
    exact errandSum_map _ _

end Disk

end SymbolAtlas

------------------------------------------------------------
-- Searches That Turn
------------------------------------------------------------

namespace SymbolAtlas

namespace Disk

variable {d e : Disk} {place : Place}

/- What is grounded on the other disk was grounded before. -/
theorem Grounded.of_sameWays_back
    (hSame : d.SameWays e)
    (hGrounded : e.Grounded place) :
    d.Grounded place := by
  induction place using List.reverseRecOn with
  | nil => exact grounded_nil d
  | append_singleton above name ih =>
      have hAbove : d.Grounded above :=
        ih (hGrounded.of_above (List.prefix_append above [name]))
      apply grounded_concat hAbove
      rw [← hSame.ways above name hAbove]
      exact hGrounded _ List.prefix_rfl

theorem SameWays.symm
    (hSame : d.SameWays e) :
    e.SameWays d where
  cwd := hSame.cwd.symm
  ways above name hGrounded :=
    (hSame.ways above name
      (hGrounded.of_sameWays_back hSame)).symm

/- A search comes to the same link on the other disk. -/
theorem advance_eq_detour_of_sameWays
    {names rest : List String}
    {parent : Place}
    {target : String}
    (hSame : d.SameWays e)
    (hGrounded : d.Grounded place)
    (hAdvance :
      d.advance true place names =
        .ok (.detour parent target rest)) :
    e.advance true place names =
      .ok (.detour parent target rest) ∧
    d.Grounded parent := by
  have hWay :
      d.approach place names = .ok (.detour parent target rest) :=
    approach_of_advance hAdvance rfl
  rcases approach_of_sameWays hSame hGrounded hWay with
    ⟨hOther, hParent⟩
  refine ⟨?_, hParent⟩
  rcases advance_of_detour hOther true with
    hDetour | ⟨hFalse, -⟩
  · exact hDetour
  · cases hFalse

theorem advance_ne_tooManyLinks
    (names : List String) :
    d.advance true place names ≠ .error .tooManyLinks := by
  induction names generalizing place with
  | nil => simp [advance]
  | cons name rest ih =>
      rw [advance]
      split
      · exact ih
      · split
        · exact ih
        · split
          · split <;> simp
          · split <;> simp
          · exact ih
          · split <;> simp

/- Links lead in a circle on both disks or on none. -/
theorem follow_tooManyLinks_of_sameWays
    {links : Nat}
    {names : List String}
    (hSame : d.SameWays e)
    (hGrounded : d.Grounded place)
    (hFollow :
      d.follow true links place names = .error .tooManyLinks) :
    e.follow true links place names = .error .tooManyLinks := by
  induction links generalizing place names with
  | zero =>
      unfold follow at hFollow ⊢
      cases hAdvance : d.advance true place names with
      | error fault =>
          rw [hAdvance] at hFollow
          cases hFollow
          exact absurd hAdvance (advance_ne_tooManyLinks names)
      | ok progress =>
          rw [hAdvance] at hFollow
          cases progress with
          | arrived found => cases hFollow
          | detour parent target rest =>
              rw [(advance_eq_detour_of_sameWays hSame hGrounded
                hAdvance).1]
  | succ links ih =>
      unfold follow at hFollow ⊢
      cases hAdvance : d.advance true place names with
      | error fault =>
          rw [hAdvance] at hFollow
          cases hFollow
          exact absurd hAdvance (advance_ne_tooManyLinks names)
      | ok progress =>
          rw [hAdvance] at hFollow
          cases progress with
          | arrived found => cases hFollow
          | detour parent target rest =>
              rcases advance_eq_detour_of_sameWays hSame hGrounded
                  hAdvance with
                ⟨hOther, hParent⟩
              rw [hOther]
              dsimp only at hFollow ⊢
              apply ih _ hFollow
              split
              · exact grounded_nil d
              · exact hParent

/- A path from the root leads in a circle on both disks. -/
theorem stat_tooManyLinks_of_sameWays
    {path : String}
    (hSame : d.SameWays e)
    (hRooted : Path.isRooted path = true)
    (hStat : d.stat path = .error .tooManyLinks) :
    e.stat path = .error .tooManyLinks := by
  have hLocate :
      d.locate true path = .error .tooManyLinks := by
    unfold stat at hStat
    split at hStat
    · next fault hFault =>
        cases hStat
        exact hFault
    · next found hFound =>
        split at hStat
        · cases hStat
        · cases hStat
        · cases hStat
  have hOther : e.locate true path = .error .tooManyLinks := by
    unfold locate at hLocate ⊢
    split at hLocate
    · cases hLocate
    · next hSome =>
        rw [if_neg hSome]
        simp only [hRooted, if_true] at hLocate ⊢
        exact follow_tooManyLinks_of_sameWays hSame
          (grounded_nil d) hLocate
  unfold stat
  rw [hOther]

end Disk

end SymbolAtlas

------------------------------------------------------------
-- Real Paths
------------------------------------------------------------

namespace SymbolAtlas

namespace Disk

variable {d e : Disk}

/- Errands meet the same links. -/
theorem SameLinks.runErrands_eq
    (hLinks : d.SameLinks e)
    (fuel : Nat)
    (known : List (Place × Place))
    (place : Place)
    (errands : List Errand) :
    e.runErrands fuel known place errands =
      d.runErrands fuel known place errands := by
  induction fuel generalizing known place errands with
  | zero => rfl
  | succ fuel ih =>
      rcases errands with _ | ⟨name | link, rest⟩
      · rfl
      · have hNode := hLinks.links (place ++ [name])
        simp only [runErrands, ih]
        split
        · rfl
        · split
          · rfl
          · split
            · next target hLink =>
                rw [(hNode target).mp hLink]
            · next hNone =>
                split
                · next target hLink =>
                    exact absurd ((hNode target).mpr hLink)
                      (hNone target)
                · rfl
      · exact ih _ _ _

/- Real paths are the same. -/
theorem SameLinks.resolve_eq
    (hLinks : d.SameLinks e)
    (hSame : d.SameWays e)
    (path : String) :
    e.resolve path = d.resolve path := by
  have hReal :
      ∀ start names,
        e.realRoute start names = d.realRoute start names := by
    intro start names
    unfold realRoute
    rw [hLinks.size, hLinks.runErrands_eq]
  unfold resolve
  dsimp only
  rw [hReal, hLinks.cwd]
  generalize hText :
    (d.realRoute
      (if (Route.ofText path).isRooted then [] else d.cwd)
      (Route.ofText path).names).text = real
  have hRooted : Path.isRooted real = true := by
    rw [← hText]
    exact Route.isRooted_text (isRooted_runErrands d _ _ _ _)
  have hForth := stat_tooManyLinks_of_sameWays hSame hRooted
  have hBack := stat_tooManyLinks_of_sameWays hSame.symm hRooted
  split
  · next hLoop => rw [hBack hLoop]
  · next hNoLoop =>
      split
      · next hLoop => exact absurd (hForth hLoop) hNoLoop
      · rfl

end Disk

/- What settings lead to is the same. -/
theorem Settings.resolvePath_of_sameLinks
    {d e : Disk}
    (hLinks : d.SameLinks e)
    (hSame : d.SameWays e)
    (s : Settings)
    (path : String) :
    s.resolvePath e path = s.resolvePath d path := by
  have hHome :
      ∀ route, e.expandHome route = d.expandHome route := by
    intro route
    unfold Disk.expandHome
    rw [hLinks.home]
  unfold resolvePath Disk.realPath
  simp only [hHome, hLinks.resolve_eq hSame]

end SymbolAtlas
