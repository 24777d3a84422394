import SymbolAtlas.Proofs.Search.Exactness
import SymbolAtlas.Proofs.Search.Guards

/-
  Where a walk comes to, whatever it cannot list.

  A walk may be cut short at a directory that cannot be listed.
  What it has found until then it has come to as any walk does:
  through directories that are listed and entered, to an entry
  that is wanted and kept.

  Key theorems:
    * `Search.Walker.comes_of_mem_traverse`
    * `Query.exists_walk_of_mem_run`
    * `Search.Walker.Comes.exists_listed`
-/

------------------------------------------------------------
-- Findings of Any Walk
------------------------------------------------------------

namespace SymbolAtlas

namespace Search

namespace Walker

variable {w : Walker} {goals : List Goal} {record : Record}

/- What is found at an entry is wanted or lies below it. -/
theorem mem_records_visit
    {below : List Goal → Record → Trace Nat}
    {found : Record}
    (hFound : found ∈ (w.visit goals below record).records) :
    (found = record ∧ w.finds goals record = true) ∨
      (w.deeper goals record ≠ [] ∧
        found ∈ (below (w.deeper goals record) record).records) := by
  have hDown :
      found ∈
          (if (w.deeper goals record).isEmpty then
            (.empty : Trace Nat)
          else below (w.deeper goals record) record).records →
        w.deeper goals record ≠ [] ∧
          found ∈
            (below (w.deeper goals record) record).records := by
    intro hBelow
    split at hBelow
    · cases hBelow
    · next hSome =>
        exact ⟨by simpa using hSome, hBelow⟩
  have hBefore :
      found ∉
        (⟨(w.descend goals record).2.events, none⟩ :
          Trace Nat).records := by
    simp only [Trace.records, filterMap_events_descend,
      List.not_mem_nil, not_false_eq_true]
  have hSelf :
      found ∈
          (w.examine goals record
            (w.descend goals record).2.memo).records →
        found = record ∧ w.finds goals record = true := by
    rw [records_examine honest_descend]
    intro hHere
    split at hHere
    · next hFinds => exact ⟨List.mem_singleton.mp hHere, hFinds⟩
    · cases hHere
  unfold visit at hFound
  dsimp only at hFound
  rw [goals_descend] at hFound
  -- Children come before or behind the entry itself.
  split at hFound
  · rcases Trace.mem_records_append hFound with hFront | hHere
    · rcases Trace.mem_records_append hFront with hTests | hBelow
      · exact absurd hTests hBefore
      · exact Or.inr (hDown hBelow)
    · exact Or.inl (hSelf hHere)
  · rcases Trace.mem_records_append hFound with hFront | hBelow
    · rcases Trace.mem_records_append hFront with hTests | hHere
      · exact absurd hTests hBefore
      · exact Or.inl (hSelf hHere)
    · exact Or.inr (hDown hBelow)

/- One level: an entry is found, or something below it is. -/
theorem exists_listed_of_mem_traverse
    {d : Disk}
    {base : String}
    (hSound : d.IsSound)
    {fuel : Nat}
    {trail : List String}
    (hTrail : ∀ step ∈ trail, Disk.IsName step)
    (hRecord :
      record ∈
        (w.traverse d (fuel + 1) (Record.pathAlong base trail)
          goals trail).records) :
    w.Allows trail.length ∧
      ∃ step entry,
        Listed d base trail step entry ∧
        ((record = entry ∧ w.finds goals entry = true) ∨
          (w.deeper goals entry ≠ [] ∧
            record ∈
              (w.traverse d fuel
                (Record.pathAlong base (trail ++ [step]))
                (w.deeper goals entry)
                (trail ++ [step])).records)) := by
  unfold traverse at hRecord
  split at hRecord
  · cases hRecord
  next hDeep =>
  rw [isTooDeep_iff, not_not] at hDeep
  refine ⟨hDeep, ?_⟩
  split at hRecord
  · unfold unreadable at hRecord
    split at hRecord
    · cases hRecord
    · cases hRecord
  · next records hEntries =>
      rcases Trace.mem_records_concat hRecord with
        ⟨trace, hTrace, hFound⟩
      rcases List.mem_map.mp hTrace with ⟨entry, hEntry, rfl⟩
      rw [← listing_of_entries hEntries] at hEntry
      rcases mem_listing_iff.mp hEntry with ⟨step, hListed⟩
      refine ⟨step, entry, hListed, ?_⟩
      have hVisit := mem_records_visit hFound
      rw [traverse_below hSound hTrail hListed] at hVisit
      exact hVisit

/-
  What a walk finds it has come to. The induction is on the
  levels left and follows the first step below.
-/
theorem comes_of_mem_traverse
    {d : Disk}
    {base : String}
    (hSound : d.IsSound)
    {fuel : Nat}
    {trail : List String}
    (hTrail : ∀ step ∈ trail, Disk.IsName step)
    (hRecord :
      record ∈
        (w.traverse d fuel (Record.pathAlong base trail) goals
          trail).records) :
    ∃ front name,
      front.length < fuel ∧
      w.Allows (trail.length + front.length) ∧
      w.Comes goals (ListedBelow d base trail) front name
        record := by
  induction fuel generalizing goals trail with
  | zero => cases hRecord
  | succ fuel ih =>
      rcases exists_listed_of_mem_traverse hSound hTrail hRecord with
        ⟨hDepth, step, entry, hListed,
          ⟨rfl, hFinds⟩ | ⟨hSome, hDown⟩⟩
      · refine ⟨[], step, by simp, hDepth, ?_⟩
        rw [comes_nil_iff, listedBelow_nil]
        exact ⟨hListed, hFinds⟩
      · rcases ih (hListed.isName hSound hTrail) hDown with
          ⟨front, name, hFuel, hAllows, hComes⟩
        refine ⟨step :: front, name, by simpa using hFuel,
          hAllows.of_le ?_, ?_⟩
        · rw [List.length_cons, List.length_append,
            List.length_singleton]
          omega
        · rw [comes_cons_iff, listedBelow_nil, listedBelow_cons]
          exact ⟨entry, hListed, hSome, hComes⟩

theorem comes_of_mem_walk
    {d : Disk}
    {base : String}
    (hSound : d.IsSound)
    (hRecord : record ∈ (w.walk d base goals).records) :
    ∃ front name,
      front.length < depthBound d ∧
      w.Allows front.length ∧
      w.Comes goals (Listed d base) front name record := by
  have hTraverse :
      record ∈
        (w.traverse d (depthBound d) (Record.pathAlong base [])
          goals []).records :=
    hRecord
  rcases comes_of_mem_traverse hSound (by simp) hTraverse with
    ⟨front, name, hFuel, hAllows, hComes⟩
  refine ⟨front, name, hFuel, by simpa using hAllows, ?_⟩
  have hBelow : ListedBelow d base [] = Listed d base := by
    funext steps
    unfold ListedBelow
    rw [List.nil_append]
  rwa [hBelow] at hComes

/-
  On the way to what a walk keeps every entry is listed. It is
  entered, or it is what is kept.
-/
theorem Comes.exists_listed
    {d : Disk}
    {base : String}
    {front : List String}
    {name : String}
    (hComes : w.Comes goals (Listed d base) front name record)
    {steps : List String}
    {step : String}
    (hSteps : steps ++ [step] <+: front ++ [name]) :
    ∃ entry,
      Listed d base steps step entry ∧
      (w.Opens entry ∨ entry = record) := by
  rcases List.prefix_concat_iff.mp hSteps with hWhole | hFront
  · rcases List.append_inj' hWhole rfl with ⟨rfl, hLast⟩
    cases hLast
    exact ⟨record, hComes.entry, .inr rfl⟩
  · rcases hComes.way steps step hFront with
      ⟨entry, hListed, hOpens⟩
    exact ⟨entry, hListed, .inl hOpens⟩

/- All that a walk comes through has a name. -/
theorem Comes.isName_of_listed
    {d : Disk}
    {base : String}
    {front : List String}
    {name : String}
    (hSound : d.IsSound)
    (hComes : w.Comes goals (Listed d base) front name record) :
    ∀ step ∈ front ++ [name], Disk.IsName step := by
  have hWay : IsWay d base front := by
    refine hComes.way.mono ?_
    rintro steps step ⟨entry, hListed, hOpens⟩
    exact ⟨entry, hListed, hOpens.1⟩
  exact hComes.entry.isName hSound (hWay.isName hSound)

end Walker

end Search

end SymbolAtlas

------------------------------------------------------------
-- Findings of a Query
------------------------------------------------------------

namespace SymbolAtlas

/- What a query finds is found below a directory of its plan. -/
theorem Query.exists_walk_of_mem_run
    {q : Query}
    (hAppended : q.appended = [])
    {d : Disk}
    {record : Record}
    (hRecord : record ∈ (q.run d).records) :
    ∃ plan base goals,
      q.plan d = .ok plan ∧
      (base, goals) ∈ plan.entries ∧
      record ∈ (q.walker.walk d base goals).records := by
  unfold run at hRecord
  cases hPlan : q.plan d with
  | error error =>
      rw [hPlan] at hRecord
      cases hRecord
  | ok plan =>
      rw [hPlan, hAppended] at hRecord
      rcases Search.Trace.mem_records_append hRecord with
        hWalk | hNone
      · unfold walkPlan at hWalk
        rw [Search.Trace.records_map] at hWalk
        rcases Search.Trace.mem_records_concat hWalk with
          ⟨trace, hTrace, hFound⟩
        rcases List.mem_map.mp hTrace with
          ⟨⟨base, goals⟩, hEntry, rfl⟩
        exact ⟨plan, base, goals, rfl, hEntry, hFound⟩
      · cases hNone

end SymbolAtlas
