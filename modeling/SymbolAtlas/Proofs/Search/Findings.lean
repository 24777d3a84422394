import SymbolAtlas.Index.Sources
import SymbolAtlas.Proofs.Path.Rooted

/-
  What is found is there.

  A search for files below a rooted directory finds files only,
  each with the time that it has on the disk. So every source
  that settings ask for is a file, and its time is the time of
  the file.

  Key theorems:
    * `Search.Walker.stat_of_mem_traverse`
    * `Sources.stat_of_mem_ofRoot`, `Sources.mem_ofFile_iff`
    * `Sources.stat_of_mem_ofSettings`
-/

------------------------------------------------------------
-- Traces
------------------------------------------------------------

namespace SymbolAtlas

namespace Search

namespace Trace

variable {ι κ : Type}

theorem mem_records_append
    {first second : Trace ι}
    {record : Record}
    (hMem : record ∈ (first ++ second).records) :
    record ∈ first.records ∨ record ∈ second.records := by
  change record ∈ (append first second).records at hMem
  unfold append at hMem
  split at hMem
  · exact Or.inl hMem
  · simpa [records, List.filterMap_append] using hMem

theorem mem_records_concat
    {traces : List (Trace ι)}
    {record : Record}
    (hMem : record ∈ (concat traces).records) :
    ∃ trace ∈ traces, record ∈ trace.records := by
  induction traces with
  | nil => cases hMem
  | cons first rest ih =>
      rcases mem_records_append hMem with hFirst | hRest
      · exact ⟨first, List.mem_cons_self, hFirst⟩
      · rcases ih hRest with ⟨trace, hTrace, hRecord⟩
        exact ⟨trace, List.mem_cons_of_mem _ hTrace, hRecord⟩

@[simp] theorem records_map
    (f : ι → κ)
    (trace : Trace ι) :
    (trace.map f).records = trace.records := by
  simp only [records, map, List.filterMap_map]
  congr 1
  funext event
  cases event <;> rfl

end Trace

end Search

end SymbolAtlas

------------------------------------------------------------
-- Walks
------------------------------------------------------------

namespace SymbolAtlas

namespace Record

/- A record of a rooted directory leads to what it tells of. -/
theorem stat_of_ofListed?
    {d : Disk}
    {directory above name : String}
    {record : Record}
    (hRooted : Path.isRooted directory = true)
    (hRecord : ofListed? d directory above name = some record) :
    Path.isRooted record.path = true ∧
      (record.kind = .file →
        d.stat record.path = .ok ⟨false, record.mtime⟩) := by
  have hPath : pathOf directory name = Path.child directory name := by
    unfold pathOf
    dsimp only
    rw [if_pos (Path.isAbsolute_of_isRooted hRooted)]
  have hChild := Path.isRooted_child hRooted name
  unfold ofListed? at hRecord
  dsimp only at hRecord
  rw [hPath] at hRecord
  split at hRecord
  · next stat hStat =>
      cases hRecord
      refine ⟨hChild, ?_⟩
      intro hKind
      rw [hStat]
      obtain ⟨isDirectory, mtime⟩ := stat
      cases isDirectory
      · rfl
      · cases hKind
  · cases hRecord
    exact ⟨hChild, fun hKind => by cases hKind⟩
  · cases hRecord

end Record

namespace Search

namespace Walker

theorem mem_entries
    {w : Walker}
    {d : Disk}
    {directory above : String}
    {records : List Record}
    {record : Record}
    (hEntries : w.entries d directory above = .ok records)
    (hRecord : record ∈ records) :
    ∃ name,
      Record.ofListed? d directory above name = some record := by
  unfold entries Record.ofDirectory at hEntries
  cases hList : d.list directory with
  | error fault =>
      rw [hList] at hEntries
      cases hEntries
  | ok names =>
      rw [hList] at hEntries
      cases hEntries
      have hListed :
          record ∈
            names.filterMap
              (Record.ofListed? d directory above) := by
        cases hOrder : w.order with
        | none => simpa [hOrder] using hRecord
        | some le => simpa [hOrder] using hRecord
      rcases List.mem_filterMap.mp hListed with ⟨name, -, hName⟩
      exact ⟨name, hName⟩

/- Testing filters finds no record. -/
theorem filterMap_events_prove
    (w : Walker)
    (record : Record)
    (indexes : List Nat)
    (memo : Memo) :
    (w.prove record indexes memo).events.filterMap Event.record? =
      [] := by
  induction indexes generalizing memo with
  | nil => rfl
  | cons index rest ih =>
      unfold prove
      split
      · exact ih memo
      · rfl
      · dsimp only
        split
        · rw [List.filterMap_cons_none rfl]
          exact ih _
        · rfl

/- An entry that is found meets a goal. -/
theorem mem_examine
    {w : Walker}
    {goals : List Goal}
    {record found : Record}
    {memo : Memo}
    (hFound : found ∈ (w.examine goals record memo).records) :
    found = record ∧ ∃ goal ∈ goals, record.kind = goal.kind := by
  induction goals generalizing memo with
  | nil => cases hFound
  | cons goal rest ih =>
      have hRest {other : Memo}
          (hLater :
            found ∈ (w.examine rest record other).records) :
          found = record ∧
            ∃ met ∈ goal :: rest, record.kind = met.kind := by
        rcases ih hLater with ⟨hSame, later, hMem, hKind⟩
        exact ⟨hSame, later, List.mem_cons_of_mem _ hMem, hKind⟩
      unfold examine at hFound
      split at hFound
      · next hMet =>
          unfold Goal.isMetBy at hMet
          rw [Bool.and_eq_true, beq_iff_eq] at hMet
          rcases Trace.mem_records_append hFound with
            hTests | hLater
          · dsimp only [Trace.records] at hTests
            rw [filterMap_events_prove] at hTests
            cases hTests
          · split at hLater
            · refine ⟨?_, goal, List.mem_cons_self, hMet.1⟩
              simpa [Trace.records, Event.record?] using hLater
            · exact hRest hLater
      · exact hRest hFound

/- The goals below a directory are among those at it. -/
theorem descendFor_subset
    {w : Walker}
    {record : Record}
    {goals : List Goal}
    {memo : Memo} :
    (w.descendFor record goals memo).1 ⊆ goals := by
  induction goals generalizing memo with
  | nil => exact List.Subset.refl _
  | cons goal rest ih =>
      unfold descendFor
      split
      · dsimp only
        split
        · exact List.cons_subset_cons goal ih
        · exact List.subset_cons_of_subset goal ih
      · exact List.subset_cons_of_subset goal ih

theorem descend_subset
    {w : Walker}
    {goals : List Goal}
    {record : Record}
    {goal : Goal}
    (hGoal : goal ∈ (w.descend goals record).1) :
    goal ∈ goals := by
  unfold descend at hGoal
  split at hGoal
  · exact descendFor_subset hGoal
  · cases hGoal

theorem filterMap_events_descendFor
    (w : Walker)
    (record : Record)
    (goals : List Goal)
    (memo : Memo) :
    (w.descendFor record goals memo).2.events.filterMap
      Event.record? = [] := by
  induction goals generalizing memo with
  | nil => rfl
  | cons goal rest ih =>
      unfold descendFor
      split
      · dsimp only
        rw [List.filterMap_append, filterMap_events_prove, ih]
        rfl
      · exact ih memo

theorem filterMap_events_descend
    (w : Walker)
    (goals : List Goal)
    (record : Record) :
    (w.descend goals record).2.events.filterMap Event.record? =
      [] := by
  unfold descend
  split
  · exact filterMap_events_descendFor w record goals []
  · rfl

/- What is found at an entry is the entry or lies below it. -/
theorem mem_visit
    {w : Walker}
    {goals : List Goal}
    {below : List Goal → Record → Trace Nat}
    {record found : Record}
    (hFound : found ∈ (w.visit goals below record).records) :
    (found = record ∧ ∃ goal ∈ goals, record.kind = goal.kind) ∨
      ∃ deeper,
        (∀ goal ∈ deeper, goal ∈ goals) ∧
        found ∈ (below deeper record).records := by
  have hDown :
      found ∈
          (if (w.descend goals record).1.isEmpty then
            (.empty : Trace Nat)
          else below (w.descend goals record).1 record).records →
        ∃ deeper,
          (∀ goal ∈ deeper, goal ∈ goals) ∧
          found ∈ (below deeper record).records := by
    intro hBelow
    split at hBelow
    · cases hBelow
    · exact ⟨_, fun _ => descend_subset, hBelow⟩
  have hBefore :
      found ∉
        (⟨(w.descend goals record).2.events, none⟩ :
          Trace Nat).records := by
    simp only [Trace.records, filterMap_events_descend,
      List.not_mem_nil, not_false_eq_true]
  unfold visit at hFound
  dsimp only at hFound
  -- Children come before or behind the entry itself.
  split at hFound
  · rcases Trace.mem_records_append hFound with hFront | hSelf
    · rcases Trace.mem_records_append hFront with hTests | hBelow
      · exact absurd hTests hBefore
      · exact Or.inr (hDown hBelow)
    · exact Or.inl (mem_examine hSelf)
  · rcases Trace.mem_records_append hFound with hFront | hBelow
    · rcases Trace.mem_records_append hFront with hTests | hSelf
      · exact absurd hTests hBefore
      · exact Or.inl (mem_examine hSelf)
    · exact Or.inr (hDown hBelow)

/- A walk for files below a rooted directory finds files. -/
theorem stat_of_mem_traverse
    {w : Walker}
    {d : Disk}
    {fuel : Nat}
    {directory : String}
    {goals : List Goal}
    {subdirs : List String}
    {record : Record}
    (hRooted : Path.isRooted directory = true)
    (hGoals : ∀ goal ∈ goals, goal.kind = .file)
    (hRecord :
      record ∈
        (w.traverse d fuel directory goals subdirs).records) :
    d.stat record.path = .ok ⟨false, record.mtime⟩ := by
  induction fuel generalizing directory goals subdirs with
  | zero => cases hRecord
  | succ fuel ih =>
      unfold traverse at hRecord
      split at hRecord
      · cases hRecord
      · split at hRecord
        · unfold unreadable at hRecord
          split at hRecord <;> cases hRecord
        · next records hEntries =>
            rcases Trace.mem_records_concat hRecord with
              ⟨trace, hTrace, hFound⟩
            rcases List.mem_map.mp hTrace with
              ⟨entry, hEntry, rfl⟩
            rcases mem_entries hEntries hEntry with
              ⟨name, hListed⟩
            have hStat := Record.stat_of_ofListed? hRooted hListed
            rcases mem_visit hFound with
              ⟨rfl, goal, hGoal, hKind⟩ | ⟨deeper, hDeeper, hBelow⟩
            · apply hStat.2
              rw [hKind, hGoals goal hGoal]
            · exact ih hStat.1
                (fun goal hGoal => hGoals goal (hDeeper goal hGoal))
                hBelow

end Walker

end Search

end SymbolAtlas

------------------------------------------------------------
-- Plans
------------------------------------------------------------

namespace SymbolAtlas

/- What every step preserves, a fold that succeeds preserves. -/
theorem foldlM_preserves
    {ε α β : Type}
    {f : β → α → Except ε β}
    (P : β → Prop)
    {items : List α}
    (hStep :
      ∀ item ∈ items, ∀ state next,
        P state → f state item = .ok next → P next)
    {start final : β}
    (hStart : P start)
    (hFold : items.foldlM f start = .ok final) :
    P final := by
  induction items generalizing start with
  | nil =>
      cases hFold
      exact hStart
  | cons item rest ih =>
      rw [List.foldlM_cons] at hFold
      cases hItem : f start item with
      | error error =>
          simp only [hItem, bind, Except.bind] at hFold
          cases hFold
      | ok next =>
          simp only [hItem, bind, Except.bind] at hFold
          apply ih _ (hStep item List.mem_cons_self _ _ hStart hItem)
            hFold
          intro other hOther
          exact hStep other (List.mem_cons_of_mem _ hOther)

namespace Search

/- The plan walks rooted directories, and for files only. -/
def Plan.IsForFiles (plan : Plan) : Prop :=
  ∀ directory goals,
    plan.get? directory = some goals →
      Path.isRooted directory = true ∧
        ∀ goal ∈ goals, goal.kind = .file

theorem isForFiles_addGoal
    {plan : Plan}
    {directory : String}
    {goal : Goal}
    (hPlan : plan.IsForFiles)
    (hRooted : Path.isRooted directory = true)
    (hKind : goal.kind = .file) :
    (addGoal plan directory goal).IsForFiles := by
  intro other goals hGet
  unfold addGoal at hGet
  rw [Keyed.get?_insert] at hGet
  split at hGet
  · next hSame =>
      cases hGet
      subst hSame
      refine ⟨hRooted, ?_⟩
      intro member hMember
      rcases List.mem_append.mp hMember with hOld | hNew
      · cases hDirectory : plan.get? other with
        | none =>
            rw [hDirectory] at hOld
            cases hOld
        | some old =>
            rw [hDirectory] at hOld
            exact (hPlan other old hDirectory).2 member hOld
      · rw [List.mem_singleton] at hNew
        rw [hNew]
        exact hKind
  · exact hPlan other goals hGet

theorem isForFiles_addGoals
    {plan : Plan}
    {found : List String}
    {goal : Goal}
    (hPlan : plan.IsForFiles)
    (hRooted :
      ∀ directory ∈ found, Path.isRooted directory = true)
    (hKind : goal.kind = .file) :
    (found.foldl (addGoal · · goal) plan).IsForFiles := by
  induction found generalizing plan with
  | nil => exact hPlan
  | cons directory rest ih =>
      rw [List.foldl_cons]
      apply ih
      · exact isForFiles_addGoal hPlan
          (hRooted directory List.mem_cons_self) hKind
      · intro other hOther
        exact hRooted other (List.mem_cons_of_mem _ hOther)

/- What is added is one goal, for every directory that is meant. -/
theorem exists_of_addSplit_eq_ok
    {d : Disk}
    {kind : EntryKind}
    {plan next : Plan}
    {split : Path.Split}
    (hAdd : addSplit d kind plan split = .ok next) :
    ∃ found mask,
      directories d
        (if split.base.isEmpty then "." else split.base) =
          .ok found ∧
      Mask.compile split.rest = .ok mask ∧
      next =
        found.foldl (addGoal · · ⟨mask, kind, split.recursive⟩)
          plan := by
  unfold addSplit at hAdd
  dsimp only at hAdd
  cases hFound :
      directories d
        (if split.base.isEmpty then "." else split.base) with
  | error error =>
      rw [hFound] at hAdd
      cases hAdd
  | ok found =>
      cases hMask : Mask.compile split.rest with
      | error error =>
          simp only [hFound, hMask, bind, Except.bind] at hAdd
          cases hAdd
      | ok mask =>
          simp only [hFound, hMask, bind, Except.bind, pure,
            Except.pure, Except.ok.injEq] at hAdd
          exact ⟨found, mask, rfl, rfl, hAdd.symm⟩

theorem isForFiles_addSplit
    {d : Disk}
    {plan next : Plan}
    {split : Path.Split}
    (hPlan : plan.IsForFiles)
    (hRooted : Path.isRooted split.base = true)
    (hAdd : addSplit d .file plan split = .ok next) :
    next.IsForFiles := by
  rcases exists_of_addSplit_eq_ok hAdd with
    ⟨found, mask, hFound, -, rfl⟩
  have hBase :
      (if split.base.isEmpty then "." else split.base) =
        split.base := by
    rw [if_neg]
    intro hEmpty
    rw [String.isEmpty_iff] at hEmpty
    rw [hEmpty] at hRooted
    exact absurd hRooted (by decide)
  rw [hBase] at hFound
  exact isForFiles_addGoals hPlan
    (fun _ => isRooted_of_mem_directories hRooted hFound) rfl

/- At rooted locations every reading has a rooted base. -/
theorem isRooted_of_mem_splits
    {locations : List String}
    (hSome : locations ≠ [])
    (hRooted :
      ∀ location ∈ locations, Path.isRooted location = true)
    {request : Request}
    {readings : List Path.Split}
    (hSplits : splits locations request = .ok readings)
    {split : Path.Split}
    (hSplit : split ∈ readings) :
    Path.isRooted split.base = true := by
  unfold splits at hSplits
  split at hSplits
  · cases locations with
    | nil => exact absurd rfl hSome
    | cons first others => cases hSplits
  · rw [Except.ok.injEq, if_neg (by simpa using hSome)] at hSplits
    rw [← hSplits] at hSplit
    rcases List.mem_map.mp hSplit with ⟨location, hLocation, rfl⟩
    apply Path.isRooted_base
    apply Path.isRooted_append
    apply Path.isRooted_append
    apply Path.isRooted_escapeBrackets
    exact hRooted location hLocation

/- Requests for files at rooted locations plan for files. -/
theorem isForFiles_plan
    {d : Disk}
    {locations : List String}
    {requests : List Request}
    {result : Plan}
    (hSome : locations ≠ [])
    (hRooted :
      ∀ location ∈ locations, Path.isRooted location = true)
    (hKinds : ∀ request ∈ requests, request.kind = .file)
    (hPlan : plan d locations requests = .ok result) :
    result.IsForFiles := by
  refine foldlM_preserves Plan.IsForFiles ?_ ?_ hPlan
  · intro request hRequest old next hOld hAdd
    unfold addRequest at hAdd
    cases hSplits : splits locations request with
    | error error =>
        simp only [hSplits, bind, Except.bind] at hAdd
        cases hAdd
    | ok readings =>
        simp only [hSplits, bind, Except.bind,
          hKinds request hRequest] at hAdd
        refine foldlM_preserves Plan.IsForFiles ?_ hOld hAdd
        intro split hSplit before after hBefore hAfter
        have hBase :=
          isRooted_of_mem_splits hSome hRooted hSplits hSplit
        exact isForFiles_addSplit hBefore hBase hAfter
  · intro directory goals hGet
    cases hGet

end Search

end SymbolAtlas

------------------------------------------------------------
-- Queries
------------------------------------------------------------

namespace SymbolAtlas

/- Every result of a list of attempts comes from one of them. -/
theorem exists_of_mem_mapM
    {ε α β : Type}
    {f : α → Except ε β}
    {items : List α}
    {results : List β}
    (hResults : items.mapM f = .ok results)
    {result : β}
    (hResult : result ∈ results) :
    ∃ item ∈ items, f item = .ok result := by
  induction items generalizing results with
  | nil =>
      cases hResults
      cases hResult
  | cons item rest ih =>
      rw [List.mapM_cons] at hResults
      cases hItem : f item with
      | error error =>
          simp only [hItem, bind, Except.bind] at hResults
          cases hResults
      | ok first =>
          cases hRest : rest.mapM f with
          | error error =>
              simp only [hItem, hRest, bind, Except.bind] at hResults
              cases hResults
          | ok others =>
              simp only [hItem, hRest, bind, Except.bind, pure,
                Except.pure, Except.ok.injEq] at hResults
              subst hResults
              rcases List.mem_cons.mp hResult with rfl | hOther
              · exact ⟨item, List.mem_cons_self, hItem⟩
              · rcases ih hRest hOther with ⟨other, hMem, hOk⟩
                exact ⟨other, List.mem_cons_of_mem _ hMem, hOk⟩

namespace Query

theorem kind_of_request
    {kind : EntryKind}
    {mask : String}
    {result : Search.Request}
    (hRequest : request kind mask = .ok result) :
    result.kind = kind := by
  unfold request at hRequest
  dsimp only at hRequest
  split at hRequest
  · cases hRequest
  · rw [← Except.ok.inj hRequest]

/- The requests of a query for files are for files. -/
theorem kind_of_mem_findFiles
    {masks : List String}
    {q : Query}
    (hFind : findFiles masks = .ok q) :
    (∀ request ∈ q.requests, request.kind = .file) ∧
      q.locations = [] ∧ q.appended = [] := by
  unfold findFiles files ask at hFind
  cases hRequests : (orAll masks).mapM (request .file) with
  | error error =>
      rw [hRequests] at hFind
      cases hFind
  | ok requests =>
      rw [hRequests] at hFind
      cases hFind
      refine ⟨?_, rfl, rfl⟩
      intro found hFound
      rcases exists_of_mem_mapM hRequests (by simpa using hFound)
        with ⟨mask, -, hMask⟩
      exact kind_of_request hMask

/- Leaving things out changes neither requests nor locations. -/
theorem exclude_keeps
    {q excluded : Query}
    {masks : List String}
    (hExclude : q.exclude masks = .ok excluded) :
    excluded.requests = q.requests ∧
      excluded.locations = q.locations ∧
      excluded.appended = q.appended := by
  unfold exclude at hExclude
  cases hMasks : masks.mapM Exclusion.compile with
  | error error =>
      rw [hMasks] at hExclude
      cases hExclude
  | ok exclusions =>
      rw [hMasks] at hExclude
      cases hExclude
      clear hMasks
      induction exclusions generalizing q with
      | nil => exact ⟨rfl, rfl, rfl⟩
      | cons first rest ih => exact ih

end Query

namespace Sources

/- The search of a root looks for files at one location. -/
theorem queryOf_shape
    {d : Disk}
    {s : Settings}
    {directory : String}
    {q : Query}
    (hQuery : queryOf d s directory = .ok q) :
    (∀ request ∈ q.requests, request.kind = .file) ∧
      (∃ location,
        Query.location "/**" directory = .ok location ∧
        q.locations = [location]) ∧
      q.appended = [] := by
  unfold queryOf at hQuery
  cases hBanned : existing d s (s.ignore ++ s.exclude) with
  | error error =>
      simp only [hBanned, bind, Except.bind] at hQuery
      cases hQuery
  | ok banned =>
      cases hFind : Query.findFiles s.accept with
      | error error =>
          simp only [hBanned, hFind, bind, Except.bind] at hQuery
          cases hQuery
      | ok found =>
          rcases Query.kind_of_mem_findFiles hFind with
            ⟨hKinds, hNowhere, hAlone⟩
          cases hLocation : Query.location "/**" directory with
          | error error =>
              simp [hBanned, hFind, bind, Except.bind,
                Query.fromDirs, Query.lookIn, hLocation,
                Except.map] at hQuery
          | ok location =>
              have hFrom :
                  found.fromDirs [directory] =
                    .ok { found with
                      locations :=
                        found.locations ++ [location] } := by
                simp [Query.fromDirs, Query.lookIn, hLocation,
                  bind, Except.bind, Except.map, pure,
                  Except.pure]
              cases hExclude :
                  ({ found with
                    locations :=
                      found.locations ++ [location] } :
                        Query).exclude s.ignore with
              | error error =>
                  simp only [hBanned, hFind, hFrom, hExclude, bind,
                    Except.bind] at hQuery
                  cases hQuery
              | ok excluded =>
                  rcases Query.exclude_keeps hExclude with
                    ⟨hRequests, hLocations, hAppended⟩
                  simp only [hBanned, hFind, hFrom, hExclude, bind,
                    Except.bind, pure, Except.pure,
                    Except.ok.injEq] at hQuery
                  subst hQuery
                  refine ⟨?_, ⟨location, rfl, ?_⟩, ?_⟩
                  · simpa [Query.descentFilter, Query.filter,
                      Query.sortBy, hRequests] using hKinds
                  · simp [Query.descentFilter, Query.filter,
                      Query.sortBy, hLocations, hNowhere]
                  · simp [Query.descentFilter, Query.filter,
                      Query.sortBy, hAppended, hAlone]

/- A search below a real directory finds files. -/
theorem stat_of_mem_run
    {d : Disk}
    {s : Settings}
    {directory : String}
    {q : Query}
    {record : Record}
    (hRooted : Path.isRooted directory = true)
    (hQuery : queryOf d s directory = .ok q)
    (hRecord : record ∈ (q.run d).records) :
    d.stat record.path = .ok ⟨false, record.mtime⟩ := by
  rcases queryOf_shape hQuery with
    ⟨hKinds, ⟨location, hLocation, hLocations⟩, hAppended⟩
  have hHere : Path.isRooted location = true :=
    Path.isRooted_location hRooted (by decide) hLocation
  unfold Query.run at hRecord
  cases hPlan : q.plan d with
  | error error =>
      rw [hPlan] at hRecord
      cases hRecord
  | ok plan =>
      rw [hPlan, hAppended] at hRecord
      have hForFiles : plan.IsForFiles := by
        unfold Query.plan at hPlan
        rw [hLocations] at hPlan
        refine Search.isForFiles_plan (by simp) ?_ hKinds hPlan
        intro other hOther
        rw [List.mem_singleton] at hOther
        rw [hOther]
        exact hHere
      rcases Search.Trace.mem_records_append hRecord with
        hWalk | hNone
      · unfold Query.walkPlan at hWalk
        rw [Search.Trace.records_map] at hWalk
        rcases Search.Trace.mem_records_concat hWalk with
          ⟨trace, hTrace, hFound⟩
        rcases List.mem_map.mp hTrace with
          ⟨⟨walked, goals⟩, hEntry, rfl⟩
        have hGet := Keyed.get?_eq_some_iff.mpr hEntry
        rcases hForFiles walked goals hGet with ⟨hTop, hGoals⟩
        exact Search.Walker.stat_of_mem_traverse hTop hGoals hFound
      · cases hNone

end Sources

end SymbolAtlas

------------------------------------------------------------
-- Sources
------------------------------------------------------------

namespace SymbolAtlas

namespace Sources

theorem mem_items_append
    {first second : Sources}
    {source : Source}
    (hMem : source ∈ (first ++ second).items) :
    source ∈ first.items ∨ source ∈ second.items := by
  change source ∈ (append first second).items at hMem
  unfold append at hMem
  split at hMem
  · exact Or.inl hMem
  · simpa using hMem

theorem mem_items_concat
    {lists : List Sources}
    {source : Source}
    (hMem : source ∈ (concat lists).items) :
    ∃ list ∈ lists, source ∈ list.items := by
  induction lists with
  | nil => cases hMem
  | cons first rest ih =>
      rcases mem_items_append hMem with hFirst | hRest
      · exact ⟨first, List.mem_cons_self, hFirst⟩
      · rcases ih hRest with ⟨list, hList, hSource⟩
        exact ⟨list, List.mem_cons_of_mem _ hList, hSource⟩

/-
  A source of a root is what a search of the root finds, or the
  root itself if that is a file.
-/
theorem exists_of_mem_ofRoot
    {d : Disk}
    {s : Settings}
    {root : String}
    {source : Source}
    (hMem : source ∈ (ofRoot d s root).items) :
    ∃ path mtime,
      s.resolvePath d root = .ok path ∧
      (d.stat path = .ok ⟨false, mtime⟩ ∧
          source = ⟨path, mtime, false⟩ ∨
        d.stat path = .ok ⟨true, mtime⟩ ∧
          ∃ q record,
            queryOf d s path = .ok q ∧
            record ∈ (q.run d).records ∧
            source = ⟨record.path, record.mtime, false⟩) := by
  unfold ofRoot at hMem
  cases hPath : s.resolvePath d root with
  | error error =>
      rw [hPath] at hMem
      cases hMem
  | ok path =>
      simp only [hPath, bind, Except.bind] at hMem
      cases hStat : d.stat path with
      | error fault =>
          rw [hStat] at hMem
          cases hMem
      | ok stat =>
          obtain ⟨isDirectory, mtime⟩ := stat
          refine ⟨path, mtime, rfl, ?_⟩
          cases isDirectory with
          | false =>
              rw [hStat] at hMem
              exact .inl ⟨hStat, List.mem_singleton.mp hMem⟩
          | true =>
              simp only [hStat, if_true] at hMem
              cases hQuery : queryOf d s path with
              | error error =>
                  rw [hQuery] at hMem
                  cases hMem
              | ok q =>
                  simp only [hQuery, pure, Except.pure, ofExcept,
                    ofTrace, List.mem_map] at hMem
                  rcases hMem with ⟨record, hRecord, rfl⟩
                  exact .inr
                    ⟨hStat, q, record, rfl, hRecord, rfl⟩

/- A source of a root is a file, has its time, and company. -/
theorem stat_of_mem_ofRoot
    {d : Disk}
    {s : Settings}
    {root : String}
    {source : Source}
    (hMem : source ∈ (ofRoot d s root).items) :
    d.stat source.path = .ok ⟨false, source.mtime⟩ ∧
      source.alone = false := by
  rcases exists_of_mem_ofRoot hMem with
    ⟨path, mtime, hPath, ⟨hStat, rfl⟩ |
      ⟨-, q, record, hQuery, hRecord, rfl⟩⟩
  · exact ⟨hStat, rfl⟩
  · exact ⟨stat_of_mem_run
      (Settings.isRooted_of_resolvePath hPath) hQuery hRecord,
      rfl⟩

/- A file that stands alone is a source if it is one. -/
theorem mem_ofFile_iff
    {d : Disk}
    {s : Settings}
    {file : String}
    {source : Source} :
    source ∈ (ofFile d s file).items ↔
      s.resolvePath d file = .ok source.path ∧
      d.stat source.path = .ok ⟨false, source.mtime⟩ ∧
      source.alone = true := by
  constructor
  · intro hMem
    unfold ofFile at hMem
    cases hPath : s.resolvePath d file with
    | error error =>
        rw [hPath] at hMem
        cases hMem
    | ok path =>
        simp only [hPath, bind, Except.bind] at hMem
        cases hStat : d.stat path with
        | error fault =>
            rw [hStat] at hMem
            cases hMem
        | ok stat =>
            obtain ⟨isDirectory, mtime⟩ := stat
            rw [hStat] at hMem
            cases isDirectory with
            | true => cases hMem
            | false =>
                rw [List.mem_singleton.mp hMem]
                exact ⟨rfl, hStat, rfl⟩
  · obtain ⟨path, mtime, alone⟩ := source
    rintro ⟨hPath, hStat, hAlone⟩
    dsimp only at hPath hStat hAlone
    unfold ofFile
    simp only [hPath, bind, Except.bind, hStat, hAlone]
    exact List.mem_cons_self

/- Every source is a file and has the time of the file. -/
theorem stat_of_mem_ofSettings
    {d : Disk}
    {s : Settings}
    {source : Source}
    (hMem : source ∈ (ofSettings d s).items) :
    d.stat source.path = .ok ⟨false, source.mtime⟩ := by
  rcases mem_items_append hMem with hRoots | hFiles
  · rcases mem_items_concat hRoots with ⟨list, hList, hSource⟩
    rcases List.mem_map.mp hList with ⟨root, -, rfl⟩
    exact (stat_of_mem_ofRoot hSource).1
  · rcases mem_items_concat hFiles with ⟨list, hList, hSource⟩
    rcases List.mem_map.mp hList with ⟨file, -, rfl⟩
    exact (mem_ofFile_iff.mp hSource).2.1

end Sources

end SymbolAtlas
