import SymbolAtlas.Proofs.Disk.Nodes
import SymbolAtlas.Proofs.Path.Normal

/-
  The directory that a path leads through last.

  The search for a path with a last name goes through the other
  names first and comes to a directory that does not depend on
  the last one. That directory is the same on every disk with
  the same directories and links; files may come and go.

  Key definitions:
    * `Disk.approach`, `Disk.reach`
    * `Disk.Grounded`, `Disk.SameWays`
  Key theorems:
    * `Disk.follow_append_last`
    * `Disk.reach_of_sameWays`
    * `Disk.sameWays_put`, `Disk.sameWays_moveTree`
-/

------------------------------------------------------------
-- Reaching Directories
------------------------------------------------------------

namespace SymbolAtlas

namespace Disk

/- A name that leads to a place directly below another one. -/
def IsPlain (name : String) : Prop :=
  Route.isVoid name = false ∧ name ≠ ".."

/- A directory that was reached, or the link that comes first. -/
inductive Approach where
  | reached (place : Place)
  | detour (parent : Place) (target : String) (rest : List String)
deriving DecidableEq, Repr

/- Go through names that lead to directories. -/
def approach (d : Disk) :
    Place → List String → Except Fault Approach
| place, [] => .ok (.reached place)
| place, name :: rest =>
    if Route.isVoid name then approach d place rest
    else if name = ".." then approach d place.dropLast rest
    else
      match d.node? (place ++ [name]) with
      | none => .error .noEntry
      | some (.file _ _) => .error .notDirectory
      | some (.dir _) => approach d (place ++ [name]) rest
      | some (.link target) => .ok (.detour place target rest)

/- Go through names and through at most so many links. -/
def reach (d : Disk) :
    (links : Nat) → Place → List String → Except Fault Place
| links, place, names =>
    match approach d place names with
    | .error fault => .error fault
    | .ok (.reached goal) => .ok goal
    | .ok (.detour parent target rest) =>
        match links with
        | 0 => .error .tooManyLinks
        | links + 1 =>
            let start :=
              if Path.isRooted target then [] else parent
            reach d links start (Path.names target ++ rest)

variable {d : Disk}

/- A search goes through all names but the last one first. -/
theorem advance_append_last
    (followLast : Bool)
    (place : Place)
    (names : List String)
    (last : String) :
    d.advance followLast place (names ++ [last]) =
      match d.approach place names with
      | .error fault => .error fault
      | .ok (.reached goal) => d.advance followLast goal [last]
      | .ok (.detour parent target rest) =>
          .ok (.detour parent target (rest ++ [last])) := by
  induction names generalizing place with
  | nil => rfl
  | cons name rest ih =>
      have hMore : (rest ++ [last]).isEmpty = false := by simp
      rw [List.cons_append, advance, approach]
      split
      · exact ih place
      · split
        · exact ih place.dropLast
        · cases d.node? (place ++ [name]) with
          | none => simp [hMore]
          | some node =>
              cases node with
              | file content mtime => simp [hMore]
              | dir mtime => exact ih (place ++ [name])
              | link target => simp [hMore]

/-
  The last name leads to a place that need not exist, unless it
  is a link that has to be followed.
-/
theorem advance_last
    {followLast : Bool}
    {last : String}
    {place : Place}
    (hLast : IsPlain last)
    (hLink :
      followLast = true →
        ∀ target, d.node? (place ++ [last]) ≠
          some (.link target)) :
    d.advance followLast place [last] =
      .ok (.arrived
        ⟨place ++ [last], d.node? (place ++ [last])⟩) := by
  rw [advance, if_neg (by simp [hLast.1]), if_neg hLast.2]
  cases hNode : d.node? (place ++ [last]) with
  | none => rfl
  | some node =>
      cases node with
      | file content mtime => rfl
      | dir mtime =>
          change d.advance followLast (place ++ [last]) [] = _
          rw [advance, hNode]
      | link target =>
          cases followLast with
          | false => rfl
          | true => exact absurd hNode (hLink rfl target)

theorem follow_append_last
    {followLast : Bool}
    {last : String}
    {links : Nat}
    {place : Place}
    {names : List String}
    (hLast : IsPlain last)
    (hLink :
      followLast = true →
        ∀ goal target, d.reach links place names = .ok goal →
          d.node? (goal ++ [last]) ≠ some (.link target)) :
    d.follow followLast links place (names ++ [last]) =
      (d.reach links place names).map fun goal =>
        ⟨goal ++ [last], d.node? (goal ++ [last])⟩ := by
  induction links generalizing place names with
  | zero =>
      unfold reach at hLink
      unfold follow reach
      rw [advance_append_last]
      cases hWay : d.approach place names with
      | error fault => rfl
      | ok way =>
          cases way with
          | detour parent target rest => rfl
          | reached goal =>
              rw [hWay] at hLink
              dsimp only
              rw [advance_last hLast fun hFollow target =>
                hLink hFollow goal target rfl]
              rfl
  | succ links ih =>
      unfold reach at hLink
      unfold follow reach
      rw [advance_append_last]
      cases hWay : d.approach place names with
      | error fault => rfl
      | ok way =>
          rw [hWay] at hLink
          cases way with
          | reached goal =>
              dsimp only
              rw [advance_last hLast fun hFollow target =>
                hLink hFollow goal target rfl]
              rfl
          | detour parent target rest =>
              dsimp only at hLink ⊢
              rw [← List.append_assoc]
              exact ih hLink

end Disk

end SymbolAtlas

------------------------------------------------------------
-- The Same Directories and Links
------------------------------------------------------------

namespace SymbolAtlas

namespace Disk

/- What a search can do at a node. -/
inductive Way where
  | stops
  | descends
  | turns (target : String)
deriving DecidableEq, Repr

def wayAt : Option Node → Way
| some (.dir _) => .descends
| some (.link target) => .turns target
| _ => .stops

/- The place and all places above it are directories. -/
def Grounded (d : Disk) (place : Place) : Prop :=
  ∀ above, above <+: place →
    wayAt (d.node? above) = .descends

/- The search is at a place that is grounded. -/
def Approach.Grounded (d : Disk) : Approach → Prop
| .reached goal => d.Grounded goal
| .detour parent _ _ => d.Grounded parent

/-
  Searches go the same ways on both disks, wherever they can
  come to.
-/
structure SameWays (d e : Disk) : Prop where
  cwd : e.cwd = d.cwd
  ways :
    ∀ place name, d.Grounded place →
      wayAt (e.node? (place ++ [name])) =
        wayAt (d.node? (place ++ [name]))

variable {d e : Disk} {place : Place}

theorem grounded_nil
    (d : Disk) :
    d.Grounded [] := by
  intro above hAbove
  rw [List.prefix_nil.mp hAbove]
  rfl

theorem Grounded.of_above
    {above : Place}
    (hGrounded : d.Grounded place)
    (hAbove : above <+: place) :
    d.Grounded above :=
  fun higher hHigher => hGrounded higher (hHigher.trans hAbove)

theorem grounded_concat
    {name : String}
    (hGrounded : d.Grounded place)
    (hNode : wayAt (d.node? (place ++ [name])) = .descends) :
    d.Grounded (place ++ [name]) := by
  intro above hAbove
  rcases List.prefix_concat_iff.mp hAbove with rfl | hHigher
  · exact hNode
  · exact hGrounded above hHigher

/- Nothing grounded lies below a place where searches stop. -/
theorem Grounded.not_below
    {leaf : Place}
    (hGrounded : d.Grounded place)
    (hLeaf : wayAt (d.node? leaf) = .stops) :
    ¬ leaf <+: place := by
  intro hAbove
  rw [hGrounded leaf hAbove] at hLeaf
  cases hLeaf

/- Directories that were reached are reached on the other disk. -/
theorem approach_of_sameWays
    (hSame : SameWays d e)
    {names : List String}
    {way : Approach}
    (hGrounded : d.Grounded place)
    (hWay : d.approach place names = .ok way) :
    e.approach place names = .ok way ∧ way.Grounded d := by
  induction names generalizing place with
  | nil =>
      cases hWay
      exact ⟨rfl, hGrounded⟩
  | cons name rest ih =>
      have hName := hSame.ways place name hGrounded
      rw [approach] at hWay ⊢
      split at hWay
      · next hVoid =>
          rw [if_pos hVoid]
          exact ih hGrounded hWay
      · next hVoid =>
          rw [if_neg hVoid]
          split at hWay
          · next hUp =>
              rw [if_pos hUp]
              exact ih (hGrounded.of_above
                (List.dropLast_prefix place)) hWay
          · next hUp =>
              rw [if_neg hUp]
              split at hWay
              · cases hWay
              · cases hWay
              · next mtime hNode =>
                  rw [hNode] at hName
                  have hBelow :=
                    grounded_concat hGrounded
                      (by rw [hNode]; rfl)
                  cases hOther : e.node? (place ++ [name]) with
                  | none => rw [hOther] at hName; cases hName
                  | some node =>
                      rw [hOther] at hName
                      cases node with
                      | file content time => cases hName
                      | link target => cases hName
                      | dir time => exact ih hBelow hWay
              · next target hNode =>
                  rw [hNode] at hName
                  cases hWay
                  cases hOther : e.node? (place ++ [name]) with
                  | none => rw [hOther] at hName; cases hName
                  | some node =>
                      rw [hOther] at hName
                      cases node with
                      | file content time => cases hName
                      | dir time => cases hName
                      | link other =>
                          cases hName
                          exact ⟨rfl, hGrounded⟩

theorem reach_of_sameWays
    (hSame : SameWays d e)
    {links : Nat}
    {names : List String}
    {goal : Place}
    (hGrounded : d.Grounded place)
    (hReach : d.reach links place names = .ok goal) :
    e.reach links place names = .ok goal ∧ d.Grounded goal := by
  induction links generalizing place names with
  | zero =>
      unfold reach at hReach ⊢
      cases hWay : d.approach place names with
      | error fault =>
          rw [hWay] at hReach
          cases hReach
      | ok way =>
          rw [hWay] at hReach
          rcases approach_of_sameWays hSame hGrounded hWay with
            ⟨hOther, hEnd⟩
          rw [hOther]
          cases way with
          | detour parent target rest => cases hReach
          | reached last =>
              cases hReach
              exact ⟨rfl, hEnd⟩
  | succ links ih =>
      unfold reach at hReach ⊢
      cases hWay : d.approach place names with
      | error fault =>
          rw [hWay] at hReach
          cases hReach
      | ok way =>
          rw [hWay] at hReach
          rcases approach_of_sameWays hSame hGrounded hWay with
            ⟨hOther, hEnd⟩
          rw [hOther]
          cases way with
          | reached last =>
              cases hReach
              exact ⟨rfl, hEnd⟩
          | detour parent target rest =>
              dsimp only at hReach ⊢
              apply ih _ hReach
              split
              · exact grounded_nil d
              · exact hEnd

end Disk

end SymbolAtlas

------------------------------------------------------------
-- Files That Come and Go
------------------------------------------------------------

namespace SymbolAtlas

namespace Disk

variable {d e : Disk} {place : Place}

/- What is grounded on one disk is grounded on the other. -/
theorem Grounded.of_sameWays
    (hGrounded : d.Grounded place)
    (hSame : SameWays d e) :
    e.Grounded place := by
  intro above hAbove
  rcases List.eq_nil_or_concat above with rfl | ⟨higher, name, rfl⟩
  · rfl
  · rw [List.concat_eq_append] at hAbove ⊢
    have hHigher : d.Grounded higher :=
      hGrounded.of_above
        ((List.prefix_append higher [name]).trans hAbove)
    rw [hSame.ways higher name hHigher]
    exact hGrounded _ hAbove

theorem ne_nil_of_stops
    (hStops : wayAt (d.node? place) = .stops) :
    place ≠ [] := by
  rintro rfl
  cases hStops

theorem sameWays_put
    (hStops : wayAt (d.node? place) = .stops)
    (content : ByteArray)
    (mtime : Int) :
    SameWays d (d.put place (.file content mtime)) := by
  refine ⟨rfl, ?_⟩
  intro other name hGrounded
  rw [node?_put (ne_nil_of_stops hStops)]
  split
  · next hSame =>
      rw [hSame, hStops]
      rfl
  · rfl

/- A file that takes the place of another one is in no way. -/
theorem sameWays_moveTree
    {source target : Place}
    (hApart : Apart source target)
    (hSource : wayAt (d.node? source) = .stops)
    (hTarget : wayAt (d.node? target) = .stops) :
    SameWays d (d.moveTree source target) := by
  refine ⟨rfl, ?_⟩
  intro place name hGrounded
  by_cases hAtSource : place ++ [name] = source
  · rw [hAtSource, node?_moveTree_source hApart, hSource]
    rfl
  · by_cases hAtTarget : place ++ [name] = target
    · rw [hAtTarget, node?_moveTree_target hApart, hSource,
        hTarget]
    · have hNotBelow :
          ∀ leaf, wayAt (d.node? leaf) = .stops →
            place ++ [name] ≠ leaf →
            ¬ leaf <+: place ++ [name] := by
        intro leaf hLeaf hNe hBelow
        rcases List.prefix_concat_iff.mp hBelow with hSame | hAbove
        · exact hNe hSame.symm
        · exact hGrounded.not_below hLeaf hAbove
      rw [node?_moveTree_of_apart
        (hNotBelow source hSource hAtSource)
        (hNotBelow target hTarget hAtTarget)]

/- The node that a search arrives at is the one of its place. -/
theorem node_of_advance
    {followLast : Bool}
    {names : List String}
    {found : Found}
    (hAdvance :
      d.advance followLast place names = .ok (.arrived found)) :
    found.node = d.node? found.place := by
  induction names generalizing place with
  | nil =>
      cases hAdvance
      rfl
  | cons name rest ih =>
      rw [advance] at hAdvance
      split at hAdvance
      · exact ih hAdvance
      · split at hAdvance
        · exact ih hAdvance
        · split at hAdvance
          · next hNode =>
              split at hAdvance
              · cases hAdvance
                exact hNode.symm
              · cases hAdvance
          · next hNode =>
              split at hAdvance
              · cases hAdvance
                exact hNode.symm
              · cases hAdvance
          · exact ih hAdvance
          · next hNode =>
              split at hAdvance
              · cases hAdvance
                exact hNode.symm
              · cases hAdvance

theorem node_of_follow
    {followLast : Bool}
    {links : Nat}
    {names : List String}
    {found : Found}
    (hFollow :
      d.follow followLast links place names = .ok found) :
    found.node = d.node? found.place := by
  induction links generalizing place names with
  | zero =>
      unfold follow at hFollow
      split at hFollow
      · cases hFollow
      · next hAdvance =>
          cases hFollow
          exact node_of_advance hAdvance
      · cases hFollow
  | succ links ih =>
      unfold follow at hFollow
      split at hFollow
      · cases hFollow
      · next hAdvance =>
          cases hFollow
          exact node_of_advance hAdvance
      · exact ih hFollow

theorem node_of_locate
    {followLast : Bool}
    {path : String}
    {found : Found}
    (hLocate : d.locate followLast path = .ok found) :
    found.node = d.node? found.place := by
  unfold locate at hLocate
  split at hLocate
  · cases hLocate
  · exact node_of_follow hLocate

end Disk

end SymbolAtlas
