import Mathlib.Data.Finset.Card
import SymbolAtlas.Proofs.Disk.LinkFree
import SymbolAtlas.Proofs.Search.Trails

/-
  A walk finds what is there.

  An entry below the base of a walk is given by the names that
  lead to it. It should be found exactly if every directory on
  the way can be listed and is entered, and if it is wanted and
  kept. This is so if and only if the texts under which the walk
  goes down lead to the directories that they stand for.

  Key definitions:
    * `Search.IsEntry`, `Search.IsTrail`
    * `Search.NoReturn`, no directory lies below itself
    * `Search.Straight`, the texts of a walk lead to its trails
    * `Search.WalksExactly`

  Key theorems:
    * `Search.IsTrail.length_le`
    * `Search.straight_of_keepsCourse`
    * `Search.walksExactly_iff_straight`
    * `Search.walk_finds_what_is_there`
-/

------------------------------------------------------------
-- Entries Below a Base
------------------------------------------------------------

namespace SymbolAtlas

namespace Record

/- The record of an entry, by where its names lead. -/
def ofEntry?
    (d : Disk)
    (base : String)
    (trail : List String)
    (name : String) : Option Record :=
  ofStat? (pathAlong base (trail ++ [name]))
    (Path.joined (trail ++ [name]))
    (d.stat (Path.below base (trail ++ [name])))

theorem ofEntry?_of_stat
    {d : Disk}
    {base : String}
    {trail : List String}
    {name : String}
    {s : Disk.Stat}
    (hStat :
      d.stat (Path.below base (trail ++ [name])) = .ok s) :
    ofEntry? d base trail name =
      some ⟨pathAlong base (trail ++ [name]),
        Path.joined (trail ++ [name]),
        if s.isDirectory then .dir else .file, s.mtime⟩ := by
  unfold ofEntry?
  rw [hStat]
  rfl

end Record

namespace Disk

/- The place that a path leads to. -/
def placeAt (d : Disk) (path : String) : Place :=
  ((d.locate true path).toOption.map Found.place).getD []

end Disk

namespace Search

/- The name is listed in the directory that a trail leads to. -/
structure IsEntry
    (d : Disk)
    (base : String)
    (trail : List String)
    (name : String)
    (record : Record) : Prop where
  listed : name ∈ d.namesAt (Path.below base trail)
  taken : Record.ofEntry? d base trail name = some record

/- Every name leads from one directory to the next. -/
def IsTrail (d : Disk) (base : String) : List String → Prop :=
  AllSteps fun steps step =>
    ∃ entry, IsEntry d base steps step entry ∧
      entry.isDirectory = true

/- No trail comes back to a directory that it has left. -/
def NoReturn (d : Disk) (base : String) : Prop :=
  ∀ trail more,
    more ≠ [] →
      IsTrail d base (trail ++ more) →
        d.placeAt (Path.below base trail) ≠
          d.placeAt (Path.below base (trail ++ more))

/-
  What a walk lists under the text that it has come to is what
  the directory at the end of its trail holds.
-/
def Straight (d : Disk) (base : String) : Prop :=
  ∀ trail,
    IsTrail d base trail →
      ∀ name record,
        Listed d base trail name record ↔
          IsEntry d base trail name record

/-
  Whatever a walk looks for, it finds the entries that it can
  come to and that it is to keep, and each of them once.
-/
def WalksExactly (d : Disk) (base : String) : Prop :=
  ∀ (w : Walker) (goals : List Goal),
    w.ignoreUnreadable = true →
      (w.walk d base goals).failure = none ∧
      ((w.walk d base goals).records.map
        Record.relative).Nodup ∧
      ∀ record,
        record ∈ (w.walk d base goals).records ↔
          ∃ front name,
            w.Allows front.length ∧
              w.Comes goals (IsEntry d base) front name record

variable {d : Disk} {base : String} {trail : List String}

theorem IsEntry.path_eq
    {name : String}
    {record : Record}
    (hEntry : IsEntry d base trail name record) :
    record.path = Record.pathAlong base (trail ++ [name]) :=
  (Record.texts_of_ofStat? hEntry.taken).1

theorem IsEntry.relative_eq
    {name : String}
    {record : Record}
    (hEntry : IsEntry d base trail name record) :
    record.relative = Path.joined (trail ++ [name]) :=
  (Record.texts_of_ofStat? hEntry.taken).2

theorem IsEntry.isName
    {name : String}
    {record : Record}
    (hEntry : IsEntry d base trail name record)
    (hSound : d.IsSound)
    (hTrail : ∀ step ∈ trail, Disk.IsName step) :
    ∀ step ∈ trail ++ [name], Disk.IsName step := by
  rw [List.forall_mem_append, List.forall_mem_singleton]
  exact ⟨hTrail, hSound.isName_of_mem_namesAt hEntry.listed⟩

theorem IsTrail.isName
    (hSound : d.IsSound)
    (hTrail : IsTrail d base trail) :
    ∀ name ∈ trail, Disk.IsName name := by
  refine AllSteps.forall_mem hTrail ?_
  rintro steps step ⟨entry, hEntry, -⟩
  exact hSound.isName_of_mem_namesAt hEntry.listed

theorem Walker.Comes.isTrail
    {w : Walker}
    {goals : List Goal}
    {front : List String}
    {name : String}
    {record : Record}
    (hComes : w.Comes goals (IsEntry d base) front name record) :
    IsTrail d base front := by
  refine hComes.way.mono ?_
  rintro steps step ⟨entry, hEntry, hOpens⟩
  exact ⟨entry, hEntry, hOpens.1⟩

end Search

end SymbolAtlas

------------------------------------------------------------
-- Trails Are Short
------------------------------------------------------------

namespace SymbolAtlas

namespace Disk

theorem placeAt_of_locate
    {d : Disk}
    {path : String}
    {found : Found}
    (hLocate : d.locate true path = .ok found) :
    d.placeAt path = found.place := by
  unfold placeAt
  rw [hLocate]
  rfl

/- A directory is the root or stands in the table. -/
theorem mem_places_of_locate
    {d : Disk}
    {path : String}
    {place : Place}
    {node : Node}
    (hLocate : d.locate true path = .ok ⟨place, some node⟩) :
    place ∈ [] :: d.nodes.map Prod.fst := by
  have hNode := node_of_locate hLocate
  by_cases hSome : place = []
  · rw [hSome]
    exact List.mem_cons_self
  · apply List.mem_cons_of_mem
    exact List.mem_map.mpr
      ⟨_, mem_nodes_of_node? hSome hNode.symm, rfl⟩

end Disk

namespace Search

variable {d : Disk} {base : String} {trail : List String}

/- All that a trail comes through are directories. -/
theorem IsTrail.exists_place
    (hTrail : IsTrail d base trail)
    (hSome : trail ≠ [])
    {front : List String}
    (hFront : front <+: trail) :
    ∃ place mtime,
      d.locate true (Path.below base front) =
        .ok ⟨place, some (.dir mtime)⟩ := by
  rcases hFront with ⟨rest, rfl⟩
  cases rest with
  | cons name more =>
      rcases hTrail front name ⟨more, by simp⟩ with
        ⟨entry, hEntry, -⟩
      rcases Disk.exists_place_of_mem_namesAt hEntry.listed with
        ⟨place, mtime, hLocate, -⟩
      exact ⟨place, mtime, hLocate⟩
  | nil =>
      rw [List.append_nil] at hTrail hSome
      rcases List.eq_nil_or_concat front with rfl | ⟨way, last, rfl⟩
      · exact absurd rfl hSome
      · rw [List.concat_eq_append] at hTrail ⊢
        rcases hTrail way last List.prefix_rfl with
          ⟨entry, hEntry, hDirectory⟩
        rcases Record.stat_of_isDirectory hEntry.taken hDirectory
          with ⟨mtime, hStat⟩
        apply Disk.isDirectory_iff.mp
        unfold Disk.isDirectory
        rw [hStat]
        rfl

/- The place that the first names of a trail lead to. -/
def placeOnTrail
    (d : Disk)
    (base : String)
    (trail : List String)
    (n : Nat) : Place :=
  d.placeAt (Path.below base (trail.take n))

theorem IsTrail.placeOnTrail_ne
    (hReturn : NoReturn d base)
    (hTrail : IsTrail d base trail)
    {m n : Nat}
    (hLess : m < n)
    (hEnd : n ≤ trail.length) :
    placeOnTrail d base trail m ≠ placeOnTrail d base trail n := by
  have hSplit :
      trail.take n = trail.take m ++ (trail.take n).drop m := by
    conv_lhs => rw [← List.take_append_drop m (trail.take n)]
    rw [List.take_take, Nat.min_eq_left hLess.le]
  have hMore : (trail.take n).drop m ≠ [] := by
    intro hNone
    have hLength := congrArg List.length hNone
    rw [List.length_drop, List.length_take, List.length_nil]
      at hLength
    omega
  have hLong : IsTrail d base (trail.take n) :=
    AllSteps.of_prefix hTrail (List.take_prefix n trail)
  rw [hSplit] at hLong
  have hNe := hReturn _ _ hMore hLong
  rw [← hSplit] at hNe
  exact hNe

/-
  The directories of a trail are all different, so there are
  not more of them than places on the disk.
-/
theorem IsTrail.length_le
    (hReturn : NoReturn d base)
    (hTrail : IsTrail d base trail) :
    trail.length ≤ d.nodes.length := by
  by_cases hSome : trail = []
  · rw [hSome]
    exact Nat.zero_le _
  have hMaps :
      Set.MapsTo (placeOnTrail d base trail)
        (Finset.range (trail.length + 1))
        ([] :: d.nodes.map Prod.fst).toFinset := by
    intro n _
    rcases hTrail.exists_place hSome (List.take_prefix n trail) with
      ⟨place, mtime, hLocate⟩
    rw [Finset.mem_coe, List.mem_toFinset, placeOnTrail,
      Disk.placeAt_of_locate hLocate]
    exact Disk.mem_places_of_locate hLocate
  have hInjective :
      Set.InjOn (placeOnTrail d base trail)
        (Finset.range (trail.length + 1)) := by
    intro m hM n hN hSame
    rw [Finset.mem_coe, Finset.mem_range] at hM hN
    rcases Nat.lt_trichotomy m n with hLess | rfl | hMore
    · exact absurd hSame
        (hTrail.placeOnTrail_ne hReturn hLess (by omega))
    · rfl
    · exact absurd hSame.symm
        (hTrail.placeOnTrail_ne hReturn hMore (by omega))
  have hCard :=
    Finset.card_le_card_of_injOn (placeOnTrail d base trail)
      hMaps hInjective
  rw [Finset.card_range] at hCard
  have hPlaces :
      ([] :: d.nodes.map Prod.fst).toFinset.card ≤
        d.nodes.length + 1 := by
    calc
      ([] :: d.nodes.map Prod.fst).toFinset.card
        ≤ ([] :: d.nodes.map Prod.fst).length :=
            List.toFinset_card_le _
      _ = d.nodes.length + 1 := by simp
  omega

theorem IsTrail.length_lt_depthBound
    (hReturn : NoReturn d base)
    (hTrail : IsTrail d base trail) :
    trail.length < Walker.depthBound d := by
  have hLength := hTrail.length_le hReturn
  unfold Walker.depthBound Disk.linkLimit
  omega

end Search

end SymbolAtlas

------------------------------------------------------------
-- No Way Back
------------------------------------------------------------

namespace SymbolAtlas

namespace Search

variable {d : Disk} {base : String}

/- Without links a trail leads where its names say. -/
theorem IsTrail.locate_below
    (hFree : d.LinkFree)
    (hSound : d.IsSound)
    {place : Place}
    {mtime : Int}
    (hBase :
      d.locate true base = .ok ⟨place, some (.dir mtime)⟩)
    {trail : List String}
    (hTrail : IsTrail d base trail) :
    ∃ time,
      d.locate true (Path.below base trail) =
        .ok ⟨place ++ trail, some (.dir time)⟩ := by
  induction trail using List.reverseRecOn with
  | nil => exact ⟨mtime, by rw [List.append_nil]; exact hBase⟩
  | append_singleton front last ih =>
      have hNames := hTrail.isName hSound
      rw [List.forall_mem_append, List.forall_mem_singleton]
        at hNames
      rcases ih (AllSteps.of_prefix hTrail
          (List.prefix_append front [last])) with ⟨time, hFront⟩
      have hChild :=
        Disk.locate_child hFront hNames.2 (hFree.node?_ne _)
      rcases hTrail.exists_place (by simp) List.prefix_rfl with
        ⟨other, later, hOther⟩
      rw [Path.below_concat, hChild] at hOther
      injection hOther with hOther
      injection hOther with hPlace hNode
      rw [Path.below_concat, hChild, hNode, List.append_assoc]
      exact ⟨later, rfl⟩

theorem noReturn_of_linkFree
    (hFree : d.LinkFree)
    (hSound : d.IsSound)
    (base : String) :
    NoReturn d base := by
  intro trail more hMore hTrail hSame
  rcases hTrail.exists_place (by simp [hMore])
      List.nil_prefix with ⟨place, mtime, hRoot⟩
  have hBase :
      d.locate true base = .ok ⟨place, some (.dir mtime)⟩ := hRoot
  have hShort : IsTrail d base trail :=
    AllSteps.of_prefix hTrail (List.prefix_append trail more)
  rcases hShort.locate_below hFree hSound hBase with ⟨_, hFront⟩
  rcases hTrail.locate_below hFree hSound hBase with ⟨_, hAll⟩
  rw [Disk.placeAt_of_locate hFront, Disk.placeAt_of_locate hAll,
    ← List.append_assoc] at hSame
  exact hMore (List.self_eq_append_right.mp hSame)

end Search

end SymbolAtlas

------------------------------------------------------------
-- Straight Texts
------------------------------------------------------------

namespace SymbolAtlas

namespace Search

variable {d : Disk} {base : String}

theorem AllSteps.congr
    {P Q : List String → String → Prop}
    (hSame :
      ∀ front, AllSteps P front →
        ∀ step, P front step ↔ Q front step)
    (trail : List String) :
    AllSteps P trail ↔ AllSteps Q trail := by
  induction trail using List.reverseRecOn with
  | nil => exact ⟨fun _ => allSteps_nil, fun _ => allSteps_nil⟩
  | append_singleton front last ih =>
      rw [allSteps_concat_iff, allSteps_concat_iff, ih]
      constructor
      · rintro ⟨hFront, hLast⟩
        exact ⟨hFront, (hSame front (ih.mpr hFront) last).mp hLast⟩
      · rintro ⟨hFront, hLast⟩
        exact ⟨hFront, (hSame front (ih.mpr hFront) last).mpr hLast⟩

/- A walk comes to the same entries if trails hold the same. -/
theorem Straight.comes_iff
    (hStraight : Straight d base)
    {w : Walker}
    {goals : List Goal}
    {front : List String}
    {name : String}
    {record : Record} :
    w.Comes goals (Listed d base) front name record ↔
      w.Comes goals (IsEntry d base) front name record := by
  have hWay :
      AllSteps
          (fun steps step =>
            ∃ entry, IsEntry d base steps step entry ∧
              w.Opens entry) front ↔
        AllSteps
          (fun steps step =>
            ∃ entry, Listed d base steps step entry ∧
              w.Opens entry) front := by
    apply AllSteps.congr
    intro trail hTrail step
    have hThere : IsTrail d base trail := by
      refine hTrail.mono ?_
      rintro steps step ⟨entry, hEntry, hOpens⟩
      exact ⟨entry, hEntry, hOpens.1⟩
    simp only [hStraight trail hThere]
  constructor
  · rintro ⟨hSteps, hEntry, hWanted, hKept⟩
    have hTrail := hWay.mpr hSteps
    refine ⟨hTrail, ?_, hWanted, hKept⟩
    refine (hStraight front (hTrail.mono ?_) name record).mp hEntry
    rintro steps step ⟨entry, hThere, hOpens⟩
    exact ⟨entry, hThere, hOpens.1⟩
  · intro hComes
    exact ⟨hWay.mp hComes.way,
      (hStraight front hComes.isTrail name record).mpr
        hComes.entry, hComes.wanted, hComes.kept⟩

theorem mem_records_walk_iff
    (hSound : d.IsSound)
    {w : Walker}
    (hIgnore : w.ignoreUnreadable = true)
    {goals : List Goal}
    {record : Record} :
    record ∈ (w.walk d base goals).records ↔
      ∃ front name,
        front.length < Walker.depthBound d ∧
        w.Allows front.length ∧
        w.Comes goals (Listed d base) front name record := by
  have hNone : ∀ step ∈ ([] : List String), Disk.IsName step := by
    simp
  change
    record ∈
        (w.traverse d (Walker.depthBound d)
          (Record.pathAlong base []) goals []).records ↔ _
  rw [Walker.mem_records_traverse_iff hSound hIgnore hNone]
  simp only [List.length_nil, Nat.zero_add]
  rfl

/- Straight texts make every walk exact. -/
theorem Straight.walksExactly
    (hSound : d.IsSound)
    (hReturn : NoReturn d base)
    (hStraight : Straight d base) :
    WalksExactly d base := by
  intro w goals hIgnore
  have hNone : ∀ step ∈ ([] : List String), Disk.IsName step := by
    simp
  have hOnce :
      ((w.traverse d (Walker.depthBound d)
        (Record.pathAlong base []) goals []).records.map
          Record.relative).Nodup :=
    Walker.nodup_relative_traverse hSound hIgnore hNone
  refine ⟨Walker.failure_traverse hIgnore d _ base goals [],
    hOnce, ?_⟩
  intro record
  rw [mem_records_walk_iff hSound hIgnore]
  constructor
  · rintro ⟨front, name, -, hAllows, hComes⟩
    exact ⟨front, name, hAllows, hStraight.comes_iff.mp hComes⟩
  · rintro ⟨front, name, hAllows, hComes⟩
    exact ⟨front, name,
      hComes.isTrail.length_lt_depthBound hReturn, hAllows,
      hStraight.comes_iff.mpr hComes⟩

/- A walk lists the entries if its text leads to its trail. -/
theorem listed_iff_isEntry
    (hSound : d.IsSound)
    {trail : List String}
    (hNames : ∀ name ∈ trail, Disk.IsName name)
    (hTexts :
      Path.Undots (Record.pathAlong base trail)
        (Path.below base trail))
    {name : String}
    {record : Record} :
    Listed d base trail name record ↔
      IsEntry d base trail name record := by
  have hListed :
      d.namesAt (Path.below base trail) =
        d.namesAt (Record.pathAlong base trail) := by
    unfold Disk.namesAt
    rw [Disk.list_of_undots hTexts]
  have hTaken :
      Disk.IsName name →
        Record.ofListed? d (Record.pathAlong base trail)
            (Path.joined trail) name =
          Record.ofEntry? d base trail name := by
    intro hName
    unfold Record.ofEntry?
    rw [Record.ofListed?_eq, Path.below_concat,
      Disk.stat_of_undots (hTexts.child hName),
      Path.relativeOf_joined hNames, Record.pathAlong_concat]
  constructor
  · rintro ⟨hMem, hRecord⟩
    have hName := hSound.isName_of_mem_namesAt hMem
    exact ⟨by rwa [hListed], by rwa [← hTaken hName]⟩
  · rintro ⟨hMem, hRecord⟩
    have hName := hSound.isName_of_mem_namesAt hMem
    exact ⟨by rwa [← hListed], by rwa [hTaken hName]⟩

/- A base that keeps its course has straight texts below it. -/
theorem straight_of_keepsCourse
    (hSound : d.IsSound)
    (hBase :
      Path.isAbsolute base = true ∨ Path.KeepsCourse base)
    (hUndotted :
      ∀ entry ∈ d.nodes, ∀ name ∈ entry.1, Path.IsUndotted name) :
    Straight d base := by
  intro trail hTrail name record
  have hNames := hTrail.isName hSound
  apply listed_iff_isEntry hSound hNames
  apply Path.undots_pathAlong hBase hNames
  refine AllSteps.forall_mem hTrail ?_
  rintro steps step ⟨entry, hEntry, -⟩
  rcases Disk.exists_node_of_mem_namesAt hEntry.listed with
    ⟨node, hNode, hMem⟩
  exact hUndotted node hNode step hMem

end Search

end SymbolAtlas

------------------------------------------------------------
-- Exact Walks
------------------------------------------------------------

namespace SymbolAtlas

namespace Search

variable {d : Disk} {base : String}

/- Goals that every entry meets, however deep it lies. -/
def everyGoal : List Goal :=
  [⟨⟨"*", .everything⟩, .file, true⟩,
    ⟨⟨"*", .everything⟩, .dir, true⟩,
    ⟨⟨"*", .everything⟩, .other, true⟩]

/- Without filters every directory on the way is open. -/
theorem comes_iff_of_no_filters
    {w : Walker}
    (hDescent : w.descent = [])
    (hContent : w.content = [])
    {goals : List Goal}
    {entryAt : List String → String → Record → Prop}
    {front : List String}
    {name : String}
    {record : Record} :
    w.Comes goals entryAt front name record ↔
      AllSteps
          (fun steps step =>
            ∃ entry, entryAt steps step entry ∧
              entry.isDirectory = true) front ∧
        entryAt front name record ∧
        Walker.Wants goals front record := by
  have hOpens :
      ∀ entry, w.Opens entry ↔ entry.isDirectory = true := by
    intro entry
    simp [Walker.Opens, Walker.passes, hDescent]
  constructor
  · rintro ⟨hWay, hEntry, hWanted, -⟩
    simp only [hOpens] at hWay
    exact ⟨hWay, hEntry, hWanted⟩
  · rintro ⟨hWay, hEntry, hWanted⟩
    refine ⟨?_, hEntry, hWanted, ?_⟩
    · simpa only [hOpens] using hWay
    · rw [Walker.passes, hContent]
      rfl

/- Looking for everything, a walk comes to all that is there. -/
theorem comes_everyGoal_iff
    {entryAt : List String → String → Record → Prop}
    {front : List String}
    {name : String}
    {record : Record} :
    ({} : Walker).Comes everyGoal entryAt front name record ↔
      AllSteps
          (fun steps step =>
            ∃ entry, entryAt steps step entry ∧
              entry.isDirectory = true) front ∧
        entryAt front name record := by
  have hWanted : Walker.Wants everyGoal front record := by
    unfold Walker.Wants everyGoal
    cases hKind : record.kind <;>
      simp [Mask.accepts, Mask.acceptsText]
  rw [comes_iff_of_no_filters rfl rfl]
  exact ⟨fun hAll => ⟨hAll.1, hAll.2.1⟩,
    fun hAll => ⟨hAll.1, hAll.2, hWanted⟩⟩

/- A trail by what a walk lists on the way. -/
def IsWay (d : Disk) (base : String) : List String → Prop :=
  AllSteps fun steps step =>
    ∃ entry, Listed d base steps step entry ∧
      entry.isDirectory = true

theorem IsWay.isName
    (hSound : d.IsSound)
    {trail : List String}
    (hWay : IsWay d base trail) :
    ∀ name ∈ trail, Disk.IsName name := by
  refine AllSteps.forall_mem hWay ?_
  rintro steps step ⟨entry, hListed, -⟩
  exact hSound.isName_of_mem_namesAt hListed.listed

/- The walk for everything lists all entries and no others. -/
theorem WalksExactly.exists_listed_iff
    (hExact : WalksExactly d base)
    (hSound : d.IsSound)
    (record : Record) :
    (∃ front name,
      front.length < Walker.depthBound d ∧
        IsWay d base front ∧ Listed d base front name record) ↔
      ∃ front name,
        IsTrail d base front ∧
          IsEntry d base front name record := by
  have hAll := (hExact {} everyGoal rfl).2.2 record
  rw [mem_records_walk_iff hSound rfl] at hAll
  have hDepth : ∀ depth, ({} : Walker).Allows depth := by
    intro depth limit hLimit
    cases hLimit
  simp only [hDepth, true_and, comes_everyGoal_iff] at hAll
  exact hAll

/-
  At the end of a trail that is listed all the way, the walk
  lists the entries: the relative path of a record tells where
  it was listed.
-/
theorem WalksExactly.listed_iff
    (hExact : WalksExactly d base)
    (hSound : d.IsSound)
    (hReturn : NoReturn d base)
    {trail : List String}
    (hTrail : IsTrail d base trail)
    (hWay : IsWay d base trail)
    (name : String)
    (record : Record) :
    Listed d base trail name record ↔
      IsEntry d base trail name record := by
  have hNames := hTrail.isName hSound
  constructor
  · intro hListed
    rcases (hExact.exists_listed_iff hSound record).mp ⟨trail,
        name, hTrail.length_lt_depthBound hReturn, hWay, hListed⟩
      with ⟨front, other, hFront, hEntry⟩
    have hTexts :=
      (hListed.relative_eq hNames).symm.trans hEntry.relative_eq
    have hTrails :=
      Path.joined_inj (hListed.isName hSound hNames)
        (hEntry.isName hSound (hFront.isName hSound))
        (by simp) (by simp) hTexts
    rw [List.append_singleton_inj] at hTrails
    rw [hTrails.1, hTrails.2]
    exact hEntry
  · intro hEntry
    rcases (hExact.exists_listed_iff hSound record).mpr ⟨trail,
        name, hTrail, hEntry⟩ with
      ⟨front, other, -, hFront, hListed⟩
    have hFrontNames := hFront.isName hSound
    have hTexts :=
      (hListed.relative_eq hFrontNames).symm.trans
        hEntry.relative_eq
    have hTrails :=
      Path.joined_inj (hListed.isName hSound hFrontNames)
        (hEntry.isName hSound hNames) (by simp) (by simp) hTexts
    rw [List.append_singleton_inj] at hTrails
    rw [← hTrails.1, ← hTrails.2]
    exact hListed

/-
  All walks from a base are exact if and only if its texts are
  straight. If some trail is not straight, the walk that looks
  for everything misses an entry or finds a foreign one.
-/
theorem walksExactly_iff_straight
    (hSound : d.IsSound)
    (hReturn : NoReturn d base) :
    WalksExactly d base ↔ Straight d base := by
  refine ⟨fun hExact => ?_, Straight.walksExactly hSound hReturn⟩
  have hWays :
      ∀ trail, IsTrail d base trail → IsWay d base trail := by
    intro trail
    induction trail using List.reverseRecOn with
    | nil => exact fun _ => allSteps_nil
    | append_singleton front last ih =>
        intro hTrail
        rw [IsTrail, allSteps_concat_iff] at hTrail
        rcases hTrail with ⟨hFront, entry, hEntry, hDirectory⟩
        have hWay := ih hFront
        have hListed :=
          (hExact.listed_iff hSound hReturn hFront hWay last
            entry).mpr hEntry
        rw [IsWay, allSteps_concat_iff]
        exact ⟨hWay, entry, hListed, hDirectory⟩
  intro trail hTrail
  exact hExact.listed_iff hSound hReturn hTrail
    (hWays trail hTrail)

/-
  Walks find what is there, once each, from a base that keeps
  its course through names that do. Other bases are walked
  exactly if and only if their texts happen to be straight.
-/
theorem walk_finds_what_is_there
    (hSound : d.IsSound)
    (hReturn : NoReturn d base) :
    ((Path.isAbsolute base = true ∨ Path.KeepsCourse base) →
      (∀ entry ∈ d.nodes, ∀ name ∈ entry.1,
        Path.IsUndotted name) →
      WalksExactly d base) ∧
    (WalksExactly d base ↔ Straight d base) := by
  refine ⟨fun hBase hUndotted => ?_,
    walksExactly_iff_straight hSound hReturn⟩
  exact (straight_of_keepsCourse hSound hBase
    hUndotted).walksExactly hSound hReturn

/-
  The library is walked exactly from its name. With two slashes
  behind a dot the walk goes on from the root and misses the
  file.
-/
theorem library_walks :
    WalksExactly Disk.library "lib" ∧
      ¬ WalksExactly Disk.library ".//lib" := by
  have hFree : Disk.library.LinkFree := by
    unfold Disk.LinkFree
    decide
  have hReturn := noReturn_of_linkFree hFree Disk.isSound_library
  have hUndotted :
      ∀ entry ∈ Disk.library.nodes, ∀ name ∈ entry.1,
        Path.IsUndotted name := by
    unfold Path.IsUndotted
    decide
  refine ⟨?_, ?_⟩
  · exact (walk_finds_what_is_there Disk.isSound_library
      (hReturn "lib")).1 (Or.inr rfl) hUndotted
  · rw [(walk_finds_what_is_there Disk.isSound_library
      (hReturn ".//lib")).2]
    intro hStraight
    have hListed :
        ∀ path place node name,
          (∃ names, Disk.library.list path = .ok names) →
            Disk.library.locate true path = .ok ⟨place, node⟩ →
              place ++ [name] ∈ Disk.library.nodes.map Prod.fst →
                name ∈ Disk.library.namesAt path := by
      rintro path place node name ⟨names, hList⟩ hLocate hPlace
      exact (Disk.mem_namesAt_iff hList hLocate).mpr hPlace
    have hSub :
        IsEntry Disk.library ".//lib" [] "sub"
          ⟨"/lib/sub", "sub", .dir, Node.directoryTime⟩ :=
      ⟨hListed ".//lib" ["w", "lib"] _ _ ⟨_, rfl⟩ rfl (by decide),
        rfl⟩
    have hFile :
        IsEntry Disk.library ".//lib" ["sub"] "f.php"
          ⟨"/lib/sub/f.php", "sub/f.php", .file, 1000⟩ :=
      ⟨hListed ".//lib/sub" ["w", "lib", "sub"] _ _ ⟨_, rfl⟩ rfl
        (by decide), rfl⟩
    have hTrail : IsTrail Disk.library ".//lib" ["sub"] :=
      allSteps_cons_iff.mpr ⟨⟨_, hSub, rfl⟩, allSteps_nil⟩
    have hFound := ((hStraight _ hTrail _ _).mpr hFile).listed
    rcases Disk.list_of_mem_namesAt hFound with ⟨names, hList, -⟩
    have hError :
        Disk.library.list "/lib/sub" = .error .noEntry := rfl
    cases hError.symm.trans hList

end Search

end SymbolAtlas
