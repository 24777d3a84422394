import SymbolAtlas.Proofs.Search.Listing
import SymbolAtlas.Proofs.Search.Trails

/-
  Walks that are cut short.

  A walk that does not pass over what it cannot list is cut short
  exactly if it goes down to a directory that cannot be listed.
  If it is not, then it finds what it would find passing over
  such directories.

  Key definitions:
    * `Search.Walker.GoesDown`
    * `Search.Walker.lenient`
  Key theorems:
    * `Search.Walker.failure_traverse_eq_none_iff`
    * `Search.Walker.traverse_eq_lenient`
-/

------------------------------------------------------------
-- Going Down
------------------------------------------------------------

namespace SymbolAtlas

namespace Search

namespace Walker

/-
  The walk goes down along a trail: every directory on it is
  there and open, and some goal is deep.
-/
structure GoesDown
    (w : Walker)
    (goals : List Goal)
    (entryAt : List String → String → Record → Prop)
    (trail : List String) : Prop where
  way :
    AllSteps
      (fun steps step =>
        ∃ entry, entryAt steps step entry ∧ w.Opens entry) trail
  deep : trail ≠ [] → ∃ goal ∈ goals, goal.deep = true

variable {w : Walker} {goals : List Goal} {record : Record}
variable {entryAt : List String → String → Record → Prop}

theorem goesDown_nil :
    w.GoesDown goals entryAt [] :=
  ⟨allSteps_nil, fun hSome => absurd rfl hSome⟩

/- The goals below an entry that is open are the deep ones. -/
theorem deeper_ne_nil_iff :
    w.deeper goals record ≠ [] ↔
      w.Opens record ∧ ∃ goal ∈ goals, goal.deep = true := by
  constructor
  · intro hSome
    have hOpens := opens_of_deeper hSome
    refine ⟨hOpens, ?_⟩
    unfold deeper at hSome
    rw [hOpens.1, hOpens.2] at hSome
    rcases List.exists_mem_of_ne_nil _ hSome with ⟨goal, hGoal⟩
    exact ⟨goal, List.mem_filter.mp hGoal⟩
  · rintro ⟨hOpens, goal, hGoal, hDeep⟩
    unfold deeper
    rw [hOpens.1, hOpens.2]
    exact List.ne_nil_of_mem
      (List.mem_filter.mpr ⟨hGoal, hDeep⟩)

/- The first step down leads to a walk for what is left there. -/
theorem goesDown_cons_iff
    {step : String}
    {rest : List String} :
    w.GoesDown goals entryAt (step :: rest) ↔
      ∃ entry,
        entryAt [] step entry ∧ w.deeper goals entry ≠ [] ∧
          w.GoesDown (w.deeper goals entry)
            (fun steps => entryAt (step :: steps)) rest := by
  constructor
  · rintro ⟨hWay, hDeep⟩
    rw [allSteps_cons_iff] at hWay
    rcases hWay with ⟨⟨entry, hEntry, hOpens⟩, hRest⟩
    have hGoal := hDeep (by simp)
    have hSome : w.deeper goals entry ≠ [] :=
      deeper_ne_nil_iff.mpr ⟨hOpens, hGoal⟩
    refine ⟨entry, hEntry, hSome, hRest, fun _ => ?_⟩
    rcases hGoal with ⟨goal, hMem, hIsDeep⟩
    refine ⟨goal, ?_, hIsDeep⟩
    unfold deeper
    rw [hOpens.1, hOpens.2]
    exact List.mem_filter.mpr ⟨hMem, hIsDeep⟩
  · rintro ⟨entry, hEntry, hSome, hRest⟩
    rcases deeper_ne_nil_iff.mp hSome with ⟨hOpens, hGoal⟩
    refine ⟨?_, fun _ => hGoal⟩
    rw [allSteps_cons_iff]
    exact ⟨⟨entry, hEntry, hOpens⟩, hRest.way⟩

end Walker

end Search

end SymbolAtlas

------------------------------------------------------------
-- Failures
------------------------------------------------------------

namespace SymbolAtlas

namespace Search

namespace Walker

variable {d : Disk} {w : Walker} {base : String}
variable {goals : List Goal} {record : Record}

/- What happens at an entry fails exactly if it does below it. -/
theorem failure_visit_eq_none_iff
    {below : List Goal → Record → Trace Nat} :
    (w.visit goals below record).failure = none ↔
      (w.deeper goals record ≠ [] →
        (below (w.deeper goals record) record).failure =
          none) := by
  unfold visit
  dsimp only
  rw [goals_descend]
  have hDown :
      (if (w.deeper goals record).isEmpty then (.empty : Trace Nat)
        else below (w.deeper goals record) record).failure = none ↔
      (w.deeper goals record ≠ [] →
        (below (w.deeper goals record) record).failure =
          none) := by
    by_cases hNone : w.deeper goals record = []
    · rw [if_pos (by simp [hNone])]
      exact ⟨fun _ hSome => absurd hNone hSome, fun _ => rfl⟩
    · rw [if_neg (by simpa using hNone)]
      exact ⟨fun hBelow _ => hBelow, fun hBelow => hBelow hNone⟩
  split
  · rw [Trace.failure_append_eq_none_iff,
      Trace.failure_append_eq_none_iff, hDown]
    exact ⟨fun hAll => hAll.1.2,
      fun hBelow => ⟨⟨rfl, hBelow⟩, failure_examine _⟩⟩
  · rw [Trace.failure_append_eq_none_iff,
      Trace.failure_append_eq_none_iff, hDown]
    exact ⟨fun hAll => hAll.2,
      fun hBelow => ⟨⟨rfl, failure_examine _⟩, hBelow⟩⟩

/- A directory can be listed exactly if it has entries. -/
theorem entries_eq_ok_iff
    {directory above : String} :
    (∃ records, w.entries d directory above = .ok records) ↔
      ∃ names, d.list directory = .ok names := by
  unfold entries Record.ofDirectory
  cases d.list directory with
  | error fault =>
      constructor <;> rintro ⟨_, hNone⟩ <;> cases hNone
  | ok names => exact ⟨fun _ => ⟨_, rfl⟩, fun _ => ⟨_, rfl⟩⟩

/- One level: the directory is listed and nothing fails below. -/
theorem failure_traverse_succ_eq_none_iff
    (hSound : d.IsSound)
    (hStrict : w.ignoreUnreadable = false)
    {fuel : Nat}
    {trail : List String}
    (hTrail : ∀ step ∈ trail, Disk.IsName step) :
    (w.traverse d (fuel + 1) (Record.pathAlong base trail) goals
        trail).failure = none ↔
      (w.Allows trail.length →
        (∃ names,
          d.list (Record.pathAlong base trail) = .ok names) ∧
        ∀ step entry,
          Listed d base trail step entry →
          w.deeper goals entry ≠ [] →
            (w.traverse d fuel
              (Record.pathAlong base (trail ++ [step]))
              (w.deeper goals entry)
              (trail ++ [step])).failure = none) := by
  rw [traverse]
  by_cases hDeep : w.isTooDeep trail = true
  · rw [if_pos hDeep]
    rw [isTooDeep_iff] at hDeep
    exact ⟨fun _ hAllows => absurd hAllows hDeep, fun _ => rfl⟩
  rw [if_neg hDeep]
  rw [isTooDeep_iff, not_not] at hDeep
  cases hEntries :
      w.entries d (Record.pathAlong base trail)
        (Path.joined trail) with
  | error fault =>
      dsimp only
      unfold unreadable
      rw [hStrict, if_neg Bool.false_ne_true]
      constructor
      · intro hNone
        cases hNone
      · intro hAll
        rcases entries_eq_ok_iff.mpr (hAll hDeep).1 with
          ⟨records, hRecords⟩
        rw [hEntries] at hRecords
        cases hRecords
  | ok records =>
      have hListing := listing_of_entries hEntries
      dsimp only
      rw [Trace.failure_concat_eq_none_iff, List.forall_mem_map]
      constructor
      · intro hAll _
        refine ⟨entries_eq_ok_iff.mp ⟨_, hEntries⟩, ?_⟩
        intro step entry hListed hSome
        have hMem :=
          mem_listing_iff (w := w).mpr ⟨step, hListed⟩
        rw [hListing] at hMem
        have hVisit :=
          failure_visit_eq_none_iff.mp (hAll entry hMem) hSome
        rwa [traverse_below hSound hTrail hListed] at hVisit
      · intro hAll entry hMem
        rw [failure_visit_eq_none_iff]
        intro hSome
        rw [← hListing] at hMem
        rcases mem_listing_iff.mp hMem with ⟨step, hListed⟩
        rw [traverse_below hSound hTrail hListed]
        exact (hAll hDeep).2 step entry hListed hSome

/-
  A walk that has come along a trail fails exactly if it goes
  down to a directory that cannot be listed. The induction is on
  the levels left.
-/
theorem failure_traverse_eq_none_iff
    (hSound : d.IsSound)
    (hStrict : w.ignoreUnreadable = false)
    {fuel : Nat}
    {trail : List String}
    (hTrail : ∀ step ∈ trail, Disk.IsName step) :
    (w.traverse d fuel (Record.pathAlong base trail) goals
        trail).failure = none ↔
      ∀ front,
        front.length < fuel →
        w.Allows (trail.length + front.length) →
        w.GoesDown goals (ListedBelow d base trail) front →
          ∃ names,
            d.list (Record.pathAlong base (trail ++ front)) =
              .ok names := by
  induction fuel generalizing goals trail with
  | zero =>
      constructor
      · intro _ front hLess
        exact absurd hLess (Nat.not_lt_zero _)
      · exact fun _ => rfl
  | succ fuel ih =>
      rw [failure_traverse_succ_eq_none_iff hSound hStrict hTrail]
      constructor
      · intro hLevel front hLess hAllows hDown
        rcases hLevel (hAllows.of_le (Nat.le_add_right _ _)) with
          ⟨hList, hBelow⟩
        cases front with
        | nil =>
            rw [List.append_nil]
            exact hList
        | cons step rest =>
            rw [goesDown_cons_iff, listedBelow_nil,
              listedBelow_cons] at hDown
            rcases hDown with ⟨entry, hListed, hSome, hRest⟩
            have hNext := hBelow step entry hListed hSome
            rw [ih (hListed.isName hSound hTrail)] at hNext
            have hNames :=
              hNext rest (by simpa using hLess)
                (hAllows.of_le (by simp; omega)) hRest
            rwa [List.append_assoc, List.singleton_append] at hNames
      · intro hAll hAllows
        refine ⟨?_, fun step entry hListed hSome => ?_⟩
        · have hHere :=
            hAll [] (Nat.succ_pos _) (by simpa using hAllows)
              goesDown_nil
          rwa [List.append_nil] at hHere
        · rw [ih (hListed.isName hSound hTrail)]
          intro front hLess hMay hDown
          rw [List.append_assoc, List.singleton_append]
          refine hAll (step :: front) (by simpa using hLess)
            (hMay.of_le (by simp; omega)) ?_
          rw [goesDown_cons_iff, listedBelow_nil, listedBelow_cons]
          exact ⟨entry, hListed, hSome, hDown⟩

end Walker

end Search

end SymbolAtlas

------------------------------------------------------------
-- Passing Over
------------------------------------------------------------

namespace SymbolAtlas

namespace Search

namespace Walker

variable {w : Walker} {goals : List Goal} {record : Record}

/- The walk that passes over what it cannot list. -/
def lenient (w : Walker) : Walker :=
  { w with ignoreUnreadable := true }

theorem prove_lenient
    (indexes : List Nat)
    (memo : Memo) :
    w.lenient.prove record indexes memo =
      w.prove record indexes memo := by
  induction indexes generalizing memo with
  | nil => rfl
  | cons index rest ih =>
      unfold prove
      simp only [ih]
      rfl

theorem descendFor_lenient
    (memo : Memo) :
    w.lenient.descendFor record goals memo =
      w.descendFor record goals memo := by
  induction goals generalizing memo with
  | nil => rfl
  | cons goal rest ih =>
      unfold descendFor
      simp only [prove_lenient, ih]
      rfl

theorem examine_lenient
    (memo : Memo) :
    w.lenient.examine goals record memo =
      w.examine goals record memo := by
  induction goals generalizing memo with
  | nil => rfl
  | cons goal rest ih =>
      unfold examine
      simp only [prove_lenient, ih]
      rfl

/- What happens at an entry is the same if it is below. -/
theorem visit_lenient
    {below other : List Goal → Record → Trace Nat}
    (hBelow :
      w.deeper goals record ≠ [] →
        below (w.deeper goals record) record =
          other (w.deeper goals record) record) :
    w.lenient.visit goals other record =
      w.visit goals below record := by
  have hDescend :
      w.lenient.descend goals record = w.descend goals record := by
    unfold descend
    rw [descendFor_lenient]
  unfold visit
  simp only [hDescend, examine_lenient, goals_descend]
  by_cases hNone : w.deeper goals record = []
  · simp only [hNone, List.isEmpty_nil, if_true]
    rfl
  · rw [hBelow hNone]
    rfl

/- A walk that does not fail has passed over nothing. -/
theorem traverse_eq_lenient
    {d : Disk}
    {fuel : Nat}
    {directory : String}
    {subdirs : List String}
    (hWhole :
      (w.traverse d fuel directory goals subdirs).failure = none) :
    w.lenient.traverse d fuel directory goals subdirs =
      w.traverse d fuel directory goals subdirs := by
  induction fuel generalizing directory goals subdirs with
  | zero => rfl
  | succ fuel ih =>
      have hEntries :
          w.lenient.entries d directory (Path.joined subdirs) =
            w.entries d directory (Path.joined subdirs) :=
        rfl
      have hTooDeep :
          w.lenient.isTooDeep subdirs = w.isTooDeep subdirs :=
        rfl
      rw [traverse] at hWhole
      rw [traverse, traverse, hEntries, hTooDeep]
      split
      · rfl
      · next hDeep =>
          rw [if_neg hDeep] at hWhole
          cases hList :
              w.entries d directory (Path.joined subdirs) with
          | error fault =>
              rw [hList] at hWhole
              dsimp only at hWhole ⊢
              unfold unreadable at hWhole ⊢
              split at hWhole
              · next hIgnore => rw [if_pos hIgnore]; rfl
              · cases hWhole
          | ok records =>
              rw [hList] at hWhole
              dsimp only at hWhole ⊢
              rw [Trace.failure_concat_eq_none_iff,
                List.forall_mem_map] at hWhole
              congr 1
              apply List.map_congr_left
              intro entry hEntry
              apply visit_lenient
              intro hSome
              exact (ih (failure_visit_eq_none_iff.mp
                (hWhole entry hEntry) hSome)).symm

end Walker

end Search

end SymbolAtlas
