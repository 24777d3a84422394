import SymbolAtlas.Proofs.Search.Listing

/-
  The records of a walk, without its tests.

  Filters are tested at most once on an entry and their answers
  are remembered. Remembered answers are right, so a walk that
  passes over what it cannot list finds the records that it
  would find if it tested every filter anew.

  Key definitions:
    * `Search.Walker.passes`
    * `Search.Walker.finds`, `Search.Walker.deeper`
    * `Search.Walker.listing`, `Search.Walker.visited`

  Key theorems:
    * `Search.Walker.holds_prove`
    * `Search.Walker.failure_traverse`
    * `Search.Walker.records_traverse_succ`
    * `Query.run_of_plan`
-/

------------------------------------------------------------
-- Remembered Answers
------------------------------------------------------------

namespace SymbolAtlas

namespace Search

namespace Walker

/- All of these filters pass the record. -/
def passes
    (w : Walker)
    (indexes : List Nat)
    (record : Record) : Bool :=
  indexes.all (w.answer record)

/- The answers remembered are those of the filters. -/
def Honest
    (w : Walker)
    (record : Record)
    (memo : Memo) : Prop :=
  ∀ index result,
    memo.lookup index = some result →
      result = w.answer record index

variable {w : Walker} {record : Record}

theorem honest_nil : w.Honest record [] := by
  intro index result hLookup
  cases hLookup

theorem Honest.remember
    {memo : Memo}
    (hHonest : w.Honest record memo)
    (index : Nat) :
    w.Honest record ((index, w.answer record index) :: memo) := by
  intro other result hLookup
  rw [List.lookup_cons] at hLookup
  split at hLookup
  · next hSame =>
      cases hLookup
      rw [eq_of_beq hSame]
  · exact hHonest other result hLookup

/- A proof holds if all its filters pass, whatever is known. -/
theorem holds_prove
    {memo : Memo}
    (hHonest : w.Honest record memo)
    (indexes : List Nat) :
    (w.prove record indexes memo).holds =
        w.passes indexes record ∧
      w.Honest record (w.prove record indexes memo).memo := by
  induction indexes generalizing memo with
  | nil => exact ⟨rfl, hHonest⟩
  | cons index rest ih =>
      have hPasses :
          w.passes (index :: rest) record =
            (w.answer record index && w.passes rest record) :=
        rfl
      rw [hPasses]
      unfold prove
      split
      · next hKnown =>
          rw [← hHonest index true hKnown, Bool.true_and]
          exact ih hHonest
      · next hKnown =>
          rw [← hHonest index false hKnown]
          exact ⟨rfl, hHonest⟩
      · have hKnown := hHonest.remember index
        cases hAnswer : w.answer record index with
        | true =>
            rw [hAnswer] at hKnown
            exact ih hKnown
        | false =>
            rw [hAnswer] at hKnown
            exact ⟨rfl, hKnown⟩

end Walker

end Search

end SymbolAtlas

------------------------------------------------------------
-- One Entry
------------------------------------------------------------

namespace SymbolAtlas

namespace Search

namespace Walker

/- The entry is wanted and passes the content filters. -/
def finds
    (w : Walker)
    (goals : List Goal)
    (record : Record) : Bool :=
  goals.any (·.isMetBy record) && w.passes w.content record

/- The goals that are pursued below the entry. -/
def deeper
    (w : Walker)
    (goals : List Goal)
    (record : Record) : List Goal :=
  if record.isDirectory && w.passes w.descent record then
    goals.filter Goal.deep
  else []

/- What is found at an entry, given what is found below it. -/
def visited
    (w : Walker)
    (goals : List Goal)
    (below : List Goal → List Record)
    (record : Record) : List Record :=
  let here := if w.finds goals record then [record] else []
  let down :=
    if (w.deeper goals record).isEmpty then []
    else below (w.deeper goals record)
  if w.childFirst then down ++ here else here ++ down

variable {w : Walker} {goals : List Goal} {record : Record}

theorem mem_visited_iff
    {below : List Goal → List Record}
    {found : Record} :
    found ∈ w.visited goals below record ↔
      (found = record ∧ w.finds goals record = true) ∨
        (w.deeper goals record ≠ [] ∧
          found ∈ below (w.deeper goals record)) := by
  have hHere :
      (found ∈ if w.finds goals record then [record] else []) ↔
        found = record ∧ w.finds goals record = true := by
    split <;> simp_all
  have hDown :
      (found ∈ if (w.deeper goals record).isEmpty then []
          else below (w.deeper goals record)) ↔
        w.deeper goals record ≠ [] ∧
          found ∈ below (w.deeper goals record) := by
    split <;> simp_all
  unfold visited
  dsimp only
  split
  · rw [List.mem_append, hHere, hDown, or_comm]
  · rw [List.mem_append, hHere, hDown]

/- If the filters let it through all deep goals remain. -/
theorem descendFor_spec
    {memo : Memo}
    (hHonest : w.Honest record memo) :
    (w.descendFor record goals memo).1 =
        (if w.passes w.descent record then goals.filter Goal.deep
          else []) ∧
      w.Honest record
        (w.descendFor record goals memo).2.memo := by
  induction goals generalizing memo with
  | nil =>
      refine ⟨?_, hHonest⟩
      split <;> rfl
  | cons goal rest ih =>
      unfold descendFor
      split
      · next hDeep =>
          rcases holds_prove hHonest w.descent with
            ⟨hHolds, hKnown⟩
          rcases ih hKnown with ⟨hRest, hLater⟩
          refine ⟨?_, hLater⟩
          dsimp only
          rw [hHolds, hRest, List.filter_cons_of_pos hDeep]
          split <;> rfl
      · next hShallow =>
          rw [List.filter_cons_of_neg hShallow]
          exact ih hHonest

theorem goals_descend :
    (w.descend goals record).1 = w.deeper goals record := by
  unfold descend deeper
  cases record.isDirectory with
  | false => rfl
  | true =>
      rw [if_pos rfl, (descendFor_spec honest_nil).1,
        Bool.true_and]

theorem honest_descend :
    w.Honest record (w.descend goals record).2.memo := by
  unfold descend
  split
  · exact (descendFor_spec honest_nil).2
  · exact honest_nil

theorem records_examine
    {memo : Memo}
    (hHonest : w.Honest record memo) :
    (w.examine goals record memo).records =
      if w.finds goals record then [record] else [] := by
  induction goals generalizing memo with
  | nil => rfl
  | cons goal rest ih =>
      have hFinds :
          w.finds (goal :: rest) record =
            (goal.isMetBy record && w.passes w.content record ||
              w.finds rest record) := by
        unfold finds
        rw [List.any_cons, Bool.and_or_distrib_right]
      rw [hFinds]
      unfold examine
      split
      · next hMet =>
          rcases holds_prove hHonest w.content with
            ⟨hHolds, hKnown⟩
          rw [Trace.records_append _ rfl]
          dsimp only [Trace.records]
          rw [filterMap_events_prove, List.nil_append, hMet,
            hHolds, Bool.true_and]
          split
          · next hPasses =>
              rw [hPasses]
              rfl
          · next hFails =>
              rw [Bool.not_eq_true] at hFails
              rw [hFails, Bool.false_or]
              exact ih hKnown
      · next hMissed =>
          rw [Bool.not_eq_true] at hMissed
          rw [hMissed, Bool.false_and, Bool.false_or]
          exact ih hHonest

theorem failure_examine
    (memo : Memo) :
    (w.examine goals record memo).failure = none := by
  induction goals generalizing memo with
  | nil => rfl
  | cons goal rest ih =>
      unfold examine
      split
      · rw [Trace.failure_append_eq_none_iff]
        refine ⟨rfl, ?_⟩
        split
        · rfl
        · exact ih _
      · exact ih memo

theorem failure_down
    {below : List Goal → Record → Trace Nat}
    (hBelow : ∀ deeper, (below deeper record).failure = none) :
    (if (w.descend goals record).1.isEmpty then
        (.empty : Trace Nat)
      else below (w.descend goals record).1 record).failure =
    none := by
  split
  · rfl
  · exact hBelow _

/- What happens at an entry fails only below it. -/
theorem failure_visit
    {below : List Goal → Record → Trace Nat}
    (hBelow : ∀ deeper, (below deeper record).failure = none) :
    (w.visit goals below record).failure = none := by
  unfold visit
  dsimp only
  split
  · simp only [Trace.failure_append_eq_none_iff, failure_examine,
      failure_down hBelow, and_self]
  · simp only [Trace.failure_append_eq_none_iff, failure_examine,
      failure_down hBelow, and_self]

theorem records_visit
    {below : List Goal → Record → Trace Nat}
    (hBelow : ∀ deeper, (below deeper record).failure = none) :
    (w.visit goals below record).records =
      w.visited goals (fun deeper => (below deeper record).records)
        record := by
  have hTests :
      (⟨(w.descend goals record).2.events, none⟩ :
        Trace Nat).records = [] :=
    filterMap_events_descend w goals record
  have hDown :
      (if (w.descend goals record).1.isEmpty then
          (.empty : Trace Nat)
        else below (w.descend goals record).1 record).records =
      if (w.deeper goals record).isEmpty then []
        else (below (w.deeper goals record) record).records := by
    rw [goals_descend]
    split <;> rfl
  unfold visit visited
  dsimp only
  split
  · rw [Trace.records_append _
        (Trace.failure_append_eq_none_iff.mpr
          ⟨rfl, failure_down hBelow⟩),
      Trace.records_append _ rfl, hTests, hDown,
      records_examine honest_descend, List.nil_append]
  · rw [Trace.records_append _
        (Trace.failure_append_eq_none_iff.mpr
          ⟨rfl, failure_examine _⟩),
      Trace.records_append _ rfl, hTests, hDown,
      records_examine honest_descend, List.nil_append]

end Walker

end Search

end SymbolAtlas

------------------------------------------------------------
-- Whole Walks
------------------------------------------------------------

namespace SymbolAtlas

namespace Search

namespace Walker

/- The records of a directory, none if it cannot be listed. -/
def listing
    (w : Walker)
    (d : Disk)
    (directory above : String) : List Record :=
  (w.entries d directory above).toOption.getD []

variable {w : Walker}

theorem listing_of_entries
    {d : Disk}
    {directory above : String}
    {records : List Record}
    (hEntries : w.entries d directory above = .ok records) :
    w.listing d directory above = records := by
  unfold listing
  rw [hEntries]
  rfl

/- Passing over what cannot be listed, a walk does not fail. -/
theorem failure_traverse
    (hIgnore : w.ignoreUnreadable = true)
    (d : Disk)
    (fuel : Nat)
    (directory : String)
    (goals : List Goal)
    (subdirs : List String) :
    (w.traverse d fuel directory goals subdirs).failure =
      none := by
  induction fuel generalizing directory goals subdirs with
  | zero => rfl
  | succ fuel ih =>
      unfold traverse
      split
      · rfl
      · split
        · unfold unreadable
          rw [if_pos hIgnore]
          rfl
        · rw [Trace.failure_concat_eq_none_iff,
            List.forall_mem_map]
          intro record _
          apply failure_visit
          intro deeper
          exact ih _ _ _

/- What a walk finds, one level after the other. -/
theorem records_traverse_succ
    (hIgnore : w.ignoreUnreadable = true)
    (d : Disk)
    (fuel : Nat)
    (directory : String)
    (goals : List Goal)
    (subdirs : List String) :
    (w.traverse d (fuel + 1) directory goals subdirs).records =
      if w.isTooDeep subdirs then []
      else
        (w.listing d directory (Path.joined subdirs)).flatMap
          fun record =>
            w.visited goals
              (fun deeper =>
                (w.traverse d fuel record.path deeper
                  (subdirs ++ [record.name])).records) record := by
  have hBelow :
      ∀ (record : Record) (deeper : List Goal),
        (w.traverse d fuel record.path deeper
          (subdirs ++ [record.name])).failure = none :=
    fun record deeper => failure_traverse hIgnore d fuel _ _ _
  rw [traverse]
  split
  · rfl
  · unfold listing
    split
    · next fault hEntries =>
        unfold unreadable
        rw [if_pos hIgnore, hEntries]
        rfl
    · next records hEntries =>
        rw [Trace.records_concat, List.flatMap_map, hEntries]
        · change List.flatMap _ records = List.flatMap _ records
          congr 1
          funext record
          exact records_visit (hBelow record)
        · rw [List.forall_mem_map]
          intro record _
          exact failure_visit (hBelow record)

end Walker

end Search

end SymbolAtlas

------------------------------------------------------------
-- Runs
------------------------------------------------------------

namespace SymbolAtlas

namespace Query

variable {q : Query}

/- The walks of a plan, one after the other. -/
theorem run_of_plan
    (hAppended : q.appended = [])
    (hIgnore : q.ignoreUnreadable = true)
    {d : Disk}
    {plan : Search.Plan}
    (hPlan : q.plan d = .ok plan) :
    (q.run d).failure = none ∧
      (q.run d).records =
        plan.entries.flatMap fun entry =>
          (q.walker.walk d entry.1 entry.2).records := by
  have hWalks :
      ∀ trace ∈
          plan.entries.map fun entry =>
            q.walker.walk d entry.1 entry.2,
        trace.failure = none := by
    rw [List.forall_mem_map]
    intro entry _
    exact Search.Walker.failure_traverse hIgnore _ _ _ _ _
  have hFailure : (q.walkPlan d plan).failure = none :=
    Search.Trace.failure_concat_eq_none_iff.mpr hWalks
  have hRun :
      q.run d = q.walkPlan d plan ++ Search.Trace.empty := by
    unfold run
    rw [hPlan, hAppended]
    rfl
  rw [hRun]
  refine ⟨Search.Trace.failure_append_eq_none_iff.mpr
    ⟨hFailure, rfl⟩, ?_⟩
  rw [Search.Trace.records_append _ hFailure]
  unfold walkPlan
  rw [Search.Trace.records_map, Search.Trace.records_concat hWalks,
    List.flatMap_map]
  exact List.append_nil _

end Query

end SymbolAtlas
