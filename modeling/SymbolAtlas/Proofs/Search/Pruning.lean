import SymbolAtlas.Proofs.Search.Trails

/-
  Excluding is filtering.

  An exclusion keeps a walk out of the directories that its core
  accepts, and may also take entries from the results. What is
  left is what the search without it finds, without the records
  below such a directory and without those taken out. So it does
  not matter in which order exclusions are made.

  Key definitions:
    * `Record.above`, the directories above an entry
    * `Exclusion.spares`
    * `Search.Walker.Pruned`
    * `Query.Built`, queries as they can be built

  Key theorems:
    * `Search.Walker.records_traverse_pruned`
    * `Query.excluding_is_filtering`
-/

------------------------------------------------------------
-- What an Exclusion Spares
------------------------------------------------------------

namespace SymbolAtlas

namespace Record

/- The relative paths of the directories above an entry. -/
def above (r : Record) : List String :=
  (List.range (r.names.length - 1)).map fun n =>
    Path.joined (r.names.take (n + 1))

theorem mem_above_iff
    {r : Record}
    {text : String} :
    text ∈ r.above ↔
      ∃ front rest,
        front ≠ [] ∧ rest ≠ [] ∧ r.names = front ++ rest ∧
          text = Path.joined front := by
  unfold above
  rw [List.mem_map]
  constructor
  · rintro ⟨n, hN, rfl⟩
    rw [List.mem_range] at hN
    refine ⟨r.names.take (n + 1), r.names.drop (n + 1), ?_, ?_,
      (List.take_append_drop _ _).symm, rfl⟩
    · apply List.ne_nil_of_length_pos
      rw [List.length_take]
      omega
    · apply List.ne_nil_of_length_pos
      rw [List.length_drop]
      omega
  · rintro ⟨front, rest, hFront, hRest, hNames, rfl⟩
    have hFrontPos := List.length_pos_of_ne_nil hFront
    have hRestPos := List.length_pos_of_ne_nil hRest
    refine ⟨front.length - 1, ?_, ?_⟩
    · rw [List.mem_range, hNames, List.length_append]
      omega
    · rw [hNames, Nat.sub_add_cancel hFrontPos, List.take_left]

end Record

namespace Exclusion

/-
  The exclusion leaves a record in the results: no directory
  above it is accepted, and it is not taken out itself.
-/
def spares (e : Exclusion) (r : Record) : Bool :=
  r.above.all (!e.core.accepts ·) &&
    match e.scope with
    | .everything => !e.core.accepts r.relative
    | .subtree => !(r.isDirectory && e.core.accepts r.relative)
    | .contents => true
    | .directories => true

end Exclusion

end SymbolAtlas

------------------------------------------------------------
-- Pruned Walks
------------------------------------------------------------

namespace SymbolAtlas

namespace Search

namespace Walker

/-
  The second walker goes like the first, but only into open
  directories, and finds only what is kept.
-/
structure Pruned
    (w narrow : Walker)
    (isOpen : String → Bool)
    (keeps : Record → Bool) : Prop where
  order : narrow.order = w.order
  childFirst : narrow.childFirst = w.childFirst
  maxDepth : narrow.maxDepth = w.maxDepth
  ignoreUnreadable : narrow.ignoreUnreadable = w.ignoreUnreadable
  descent :
    ∀ record, record.isDirectory = true →
      narrow.passes narrow.descent record =
        (w.passes w.descent record && isOpen record.relative)
  content :
    ∀ record,
      narrow.passes narrow.content record =
        (w.passes w.content record && keeps record)

variable {w narrow : Walker} {isOpen : String → Bool}
  {keeps : Record → Bool}

theorem Pruned.finds
    (hPruned : Pruned w narrow isOpen keeps)
    (goals : List Goal)
    (record : Record) :
    narrow.finds goals record =
      (w.finds goals record && keeps record) := by
  unfold Walker.finds
  rw [hPruned.content, Bool.and_assoc]

theorem Pruned.deeper
    (hPruned : Pruned w narrow isOpen keeps)
    (goals : List Goal)
    (record : Record) :
    narrow.deeper goals record =
      if isOpen record.relative then w.deeper goals record
      else [] := by
  unfold Walker.deeper
  cases hDirectory : record.isDirectory with
  | false => simp
  | true =>
      rw [hPruned.descent record hDirectory]
      cases isOpen record.relative <;> simp

theorem Pruned.listing
    (hPruned : Pruned w narrow isOpen keeps)
    (d : Disk)
    (directory above : String) :
    narrow.listing d directory above =
      w.listing d directory above := by
  unfold Walker.listing entries
  rw [hPruned.order]

theorem Pruned.isTooDeep
    (hPruned : Pruned w narrow isOpen keeps)
    (subdirs : List String) :
    narrow.isTooDeep subdirs = w.isTooDeep subdirs := by
  unfold Walker.isTooDeep
  rw [hPruned.maxDepth]

/-
  One entry: a shut directory is found or not as before, but
  nothing below it; below an open one the walks are compared.
-/
theorem Pruned.visited
    (hPruned : Pruned w narrow isOpen keeps)
    {spares : Record → Bool}
    {goals : List Goal}
    {below belowNarrow : List Goal → List Record}
    {entry : Record}
    (hHere : spares entry = keeps entry)
    (hOpen :
      isOpen entry.relative = true →
        ∀ deeper, belowNarrow deeper = (below deeper).filter spares)
    (hShut :
      isOpen entry.relative = false →
        ∀ deeper, (below deeper).filter spares = []) :
    narrow.visited goals belowNarrow entry =
      (w.visited goals below entry).filter spares := by
  have hFound :
      (if narrow.finds goals entry then [entry] else []) =
        (if w.finds goals entry then [entry] else []).filter
          spares := by
    rw [hPruned.finds]
    cases w.finds goals entry with
    | false => rfl
    | true => simp [List.filter_singleton, hHere]
  have hDown :
      (if (narrow.deeper goals entry).isEmpty then []
        else belowNarrow (narrow.deeper goals entry)) =
      (if (w.deeper goals entry).isEmpty then []
        else below (w.deeper goals entry)).filter spares := by
    rw [hPruned.deeper]
    cases hRelative : isOpen entry.relative with
    | true =>
        rw [if_pos rfl, hOpen hRelative]
        split <;> rfl
    | false =>
        rw [if_neg Bool.false_ne_true, List.isEmpty_nil,
          if_pos rfl]
        split
        · rfl
        · exact (hShut hRelative _).symm
  unfold Walker.visited
  dsimp only
  rw [hPruned.childFirst, hFound, hDown]
  split <;> rw [List.filter_append]

/-
  A pruned walk finds what is left of the other. The induction
  is on the levels; all directories on the trail are open.
-/
theorem records_traverse_pruned
    {d : Disk}
    (hSound : d.IsSound)
    (hPruned : Pruned w narrow isOpen keeps)
    (hIgnore : w.ignoreUnreadable = true)
    {base : String}
    {fuel : Nat}
    {goals : List Goal}
    {trail : List String}
    (hTrail : ∀ step ∈ trail, Disk.IsName step)
    (hOpen :
      ∀ front, front ≠ [] → front <+: trail →
        isOpen (Path.joined front) = true) :
    (narrow.traverse d fuel (Record.pathAlong base trail) goals
        trail).records =
      (w.traverse d fuel (Record.pathAlong base trail) goals
        trail).records.filter fun record =>
          record.above.all isOpen && keeps record := by
  induction fuel generalizing goals trail with
  | zero => rfl
  | succ fuel ih =>
      have hNarrow : narrow.ignoreUnreadable = true := by
        rw [hPruned.ignoreUnreadable, hIgnore]
      rw [records_traverse_succ hNarrow,
        records_traverse_succ hIgnore, hPruned.isTooDeep,
        hPruned.listing]
      split
      · rfl
      · rw [List.filter_flatMap]
        apply List.flatMap_congr
        intro entry hEntry
        rcases mem_listing_iff.mp hEntry with ⟨step, hListed⟩
        have hNames := hListed.names_eq hSound hTrail
        have hRelative := hListed.relative_eq hTrail
        apply hPruned.visited
        · have hAbove : entry.above.all isOpen = true := by
            rw [List.all_eq_true]
            intro text hText
            rcases Record.mem_above_iff.mp hText with
              ⟨front, rest, hFront, hRest, hSplit, rfl⟩
            rw [hNames] at hSplit
            apply hOpen front hFront
            rcases List.prefix_concat_iff.mp ⟨rest, hSplit.symm⟩
              with hAll | hShort
            · rw [hAll] at hSplit
              exact absurd (List.self_eq_append_right.mp hSplit)
                hRest
            · exact hShort
          rw [hAbove, Bool.true_and]
        · intro hEntryOpen deeper
          rw [traverse_below hSound hTrail hListed,
            traverse_below hSound hTrail hListed]
          apply ih (hListed.isName hSound hTrail)
          intro front hFront hPrefix
          rcases List.prefix_concat_iff.mp hPrefix with
            rfl | hShort
          · rw [← hRelative]
            exact hEntryOpen
          · exact hOpen front hFront hShort
        · intro hEntryShut deeper
          rw [List.filter_eq_nil_iff]
          intro record hRecord hSpared
          rw [traverse_below hSound hTrail hListed] at hRecord
          rcases names_of_mem_traverse hSound hIgnore
              (hListed.isName hSound hTrail) hRecord with
            ⟨rest, hRest, hRecordNames⟩
          rw [Bool.and_eq_true, List.all_eq_true] at hSpared
          have hShut := hSpared.1 _ (Record.mem_above_iff.mpr
            ⟨trail ++ [step], rest, by simp, hRest, hRecordNames,
              rfl⟩)
          rw [← hRelative, hEntryShut] at hShut
          cases hShut

end Walker

end Search

end SymbolAtlas

------------------------------------------------------------
-- Queries
------------------------------------------------------------

namespace SymbolAtlas

namespace Query

/- Filters are referred to by positions that they have. -/
structure Wired (q : Query) : Prop where
  content : ∀ index ∈ q.content, index < q.filters.length
  descent : ∀ index ∈ q.descent, index < q.filters.length

/- The queries that can be built, one call after the other. -/
inductive Built : Query → Prop
| new : Built {}
| ask {q asked : Query} {kind : EntryKind} {masks : List String}
    (hBuilt : Built q)
    (hAsk : q.ask kind masks = .ok asked) :
    Built asked
| lookIn {q placed : Query} {suffix : String}
    {paths : List String}
    (hBuilt : Built q)
    (hLook : q.lookIn suffix paths = .ok placed) :
    Built placed
| filter {q : Query}
    (hBuilt : Built q)
    (f : Filter) :
    Built (q.filter f)
| descentFilter {q : Query}
    (hBuilt : Built q)
    (f : Filter) :
    Built (q.descentFilter f)
| exclude {q excluded : Query} {masks : List String}
    (hBuilt : Built q)
    (hExclude : q.exclude masks = .ok excluded) :
    Built excluded
| order {q : Query}
    (hBuilt : Built q)
    (le : Record → Record → Bool) :
    Built { q with order := some le }
| childFirst {q : Query}
    (hBuilt : Built q)
    (on : Bool) :
    Built { q with childFirst := on }
| limitDepth {q : Query}
    (hBuilt : Built q)
    (limit : Option Int) :
    Built (q.limitDepth limit)
| ignoreUnreadable {q : Query}
    (hBuilt : Built q)
    (on : Bool) :
    Built { q with ignoreUnreadable := on }
| appendPath {q : Query}
    (hBuilt : Built q)
    (path : String) :
    Built (q.appendPath path)
| appendSearch {q : Query}
    (hBuilt : Built q)
    (search : Search) :
    Built (q.appendSearch search)

/- One more filter, which is referred to where asked for. -/
theorem Wired.add
    {q wider : Query}
    (hWired : q.Wired)
    {f : Filter}
    (hFilters : wider.filters = q.filters ++ [f])
    (hContent :
      wider.content = q.content ∨
        wider.content = q.content ++ [q.filters.length])
    (hDescent :
      wider.descent = q.descent ∨
        wider.descent = q.descent ++ [q.filters.length]) :
    wider.Wired := by
  have hIndexes :
      ∀ indexes more : List Nat,
        (∀ index ∈ indexes, index < q.filters.length) →
          (more = indexes ∨ more = indexes ++ [q.filters.length]) →
            ∀ index ∈ more, index < wider.filters.length := by
    intro indexes more hAll hMore index hIndex
    rw [hFilters, List.length_append, List.length_singleton]
    rcases hMore with rfl | rfl
    · exact Nat.lt_succ_of_lt (hAll index hIndex)
    · rcases List.mem_append.mp hIndex with hOld | hNew
      · exact Nat.lt_succ_of_lt (hAll index hOld)
      · rw [List.mem_singleton.mp hNew]
        exact Nat.lt_succ_self _
  exact ⟨hIndexes _ _ hWired.content hContent,
    hIndexes _ _ hWired.descent hDescent⟩

theorem Wired.leaveOut
    {q : Query}
    (hWired : q.Wired)
    (e : Exclusion) :
    (q.leaveOut e).Wired := by
  refine hWired.add rfl ?_ (Or.inr rfl)
  unfold Query.leaveOut
  dsimp only
  split
  · exact Or.inr rfl
  · exact Or.inl rfl

theorem exclude_eq_ok_iff
    {q excluded : Query}
    {masks : List String} :
    q.exclude masks = .ok excluded ↔
      ∃ exclusions,
        masks.mapM Exclusion.compile = .ok exclusions ∧
          excluded = exclusions.foldl Query.leaveOut q := by
  unfold exclude
  cases masks.mapM Exclusion.compile with
  | error error => simp [Except.map]
  | ok exclusions => simp [Except.map, eq_comm]

theorem Built.wired
    {q : Query}
    (hBuilt : q.Built) :
    q.Wired := by
  induction hBuilt with
  | new => exact ⟨by simp, by simp⟩
  | @ask q asked kind masks _ hAsk ih =>
      unfold Query.ask at hAsk
      cases hMasks : masks.mapM (request kind) with
      | error error =>
          rw [hMasks] at hAsk
          cases hAsk
      | ok requests =>
          rw [hMasks] at hAsk
          cases hAsk
          exact ⟨ih.content, ih.descent⟩
  | @lookIn q placed suffix paths _ hLook ih =>
      unfold Query.lookIn at hLook
      cases hPaths : paths.mapM (location suffix) with
      | error error =>
          rw [hPaths] at hLook
          cases hLook
      | ok locations =>
          rw [hPaths] at hLook
          cases hLook
          exact ⟨ih.content, ih.descent⟩
  | filter _ f ih => exact ih.add rfl (Or.inr rfl) (Or.inl rfl)
  | descentFilter _ f ih =>
      exact ih.add rfl (Or.inl rfl) (Or.inr rfl)
  | exclude _ hExclude ih =>
      rcases exclude_eq_ok_iff.mp hExclude with
        ⟨exclusions, -, rfl⟩
      exact List.foldlRecOn exclusions _ ih
        fun q hWired e _ => hWired.leaveOut e
  | order _ le ih => exact ⟨ih.content, ih.descent⟩
  | childFirst _ on ih => exact ⟨ih.content, ih.descent⟩
  | limitDepth _ limit ih => exact ⟨ih.content, ih.descent⟩
  | ignoreUnreadable _ on ih => exact ⟨ih.content, ih.descent⟩
  | appendPath _ path ih => exact ⟨ih.content, ih.descent⟩
  | appendSearch _ search ih => exact ⟨ih.content, ih.descent⟩

end Query

end SymbolAtlas

------------------------------------------------------------
-- Exclusions
------------------------------------------------------------

namespace SymbolAtlas

namespace Query

variable {q : Query}

/- A filter behind all others changes none of their answers. -/
theorem passes_concat
    {w narrow : Search.Walker}
    {test : Record → Bool}
    (hFilters : narrow.filters = w.filters ++ [test])
    {indexes : List Nat}
    (hIndexes : ∀ index ∈ indexes, index < w.filters.length)
    (record : Record) :
    narrow.passes indexes record = w.passes indexes record ∧
      narrow.passes (indexes ++ [w.filters.length]) record =
        (w.passes indexes record && test record) := by
  have hOld :
      narrow.passes indexes record = w.passes indexes record := by
    unfold Search.Walker.passes
    rw [Bool.eq_iff_iff, List.all_eq_true, List.all_eq_true]
    refine forall₂_congr fun index hIndex => ?_
    unfold Search.Walker.answer
    rw [hFilters, List.getElem?_append_left (hIndexes index hIndex)]
  have hNew :
      narrow.answer record w.filters.length = test record := by
    unfold Search.Walker.answer
    rw [hFilters, List.getElem?_concat_length]
  refine ⟨hOld, ?_⟩
  rw [← hOld, ← hNew]
  simp [Search.Walker.passes]

/- What an exclusion does to the walker of a query. -/
theorem pruned_leaveOut
    (hWired : q.Wired)
    (e : Exclusion) :
    q.walker.Pruned (q.leaveOut e).walker (!e.core.accepts ·)
      fun record =>
        !e.scope.filtersResults ||
          e.keeps record.isDirectory record.relative := by
  have hFilters :
      (q.leaveOut e).walker.filters =
        q.walker.filters ++
          [fun record =>
            e.keeps record.isDirectory record.relative] := by
    simp [walker, leaveOut]
  have hLength : q.walker.filters.length = q.filters.length := by
    simp [walker]
  have hContent :
      ∀ index ∈ q.walker.content,
        index < q.walker.filters.length := by
    rw [hLength]
    exact hWired.content
  have hDescent :
      ∀ index ∈ q.walker.descent,
        index < q.walker.filters.length := by
    rw [hLength]
    exact hWired.descent
  refine ⟨rfl, rfl, rfl, rfl, ?_, ?_⟩
  · intro record hDirectory
    have hPasses := (passes_concat hFilters hDescent record).2
    rw [hLength] at hPasses
    refine hPasses.trans ?_
    simp [Exclusion.keeps, hDirectory]
  · intro record
    have hPasses := passes_concat hFilters hContent record
    rw [hLength] at hPasses
    cases hScope : e.scope.filtersResults with
    | true =>
        have hIndexes :
            (q.leaveOut e).walker.content =
              q.walker.content ++ [q.filters.length] := by
          simp [walker, leaveOut, hScope]
        rw [hIndexes, hPasses.2]
        rfl
    | false =>
        have hIndexes :
            (q.leaveOut e).walker.content = q.walker.content := by
          simp [walker, leaveOut, hScope]
        rw [hIndexes, hPasses.1]
        simp

/- Together they spare what the exclusion is to spare. -/
theorem spares_eq
    (e : Exclusion) :
    e.spares =
      fun record =>
        record.above.all (!e.core.accepts ·) &&
          (!e.scope.filtersResults ||
            e.keeps record.isDirectory record.relative) := by
  funext record
  unfold Exclusion.spares Exclusion.keeps
  cases e.scope <;>
    simp [Exclusion.Scope.filtersResults, Exclusion.Scope.suffix]

/- One exclusion filters what is found. -/
theorem run_leaveOut
    (hWired : q.Wired)
    (hAppended : q.appended = [])
    (hIgnore : q.ignoreUnreadable = true)
    {d : Disk}
    (hSound : d.IsSound)
    (e : Exclusion) :
    ((q.leaveOut e).run d).failure = (q.run d).failure ∧
      ((q.leaveOut e).run d).records =
        (q.run d).records.filter e.spares := by
  have hSame : (q.leaveOut e).plan d = q.plan d := rfl
  cases hPlan : q.plan d with
  | error error =>
      unfold run
      rw [hSame, hPlan]
      exact ⟨rfl, rfl⟩
  | ok plan =>
      have hBefore := run_of_plan hAppended hIgnore hPlan
      rw [hPlan] at hSame
      have hAfter :=
        run_of_plan (q := q.leaveOut e) hAppended hIgnore hSame
      refine ⟨by rw [hAfter.1, hBefore.1], ?_⟩
      rw [hAfter.2, hBefore.2, List.filter_flatMap]
      apply List.flatMap_congr
      rintro ⟨directory, goals⟩ _
      rw [spares_eq]
      exact Search.Walker.records_traverse_pruned hSound
        (pruned_leaveOut hWired e) hIgnore (by simp)
        (fun front hFront hPrefix =>
          absurd (List.prefix_nil.mp hPrefix) hFront)

/- Exclusions one after the other spare what each one spares. -/
theorem run_foldl_leaveOut
    (hWired : q.Wired)
    (hAppended : q.appended = [])
    (hIgnore : q.ignoreUnreadable = true)
    {d : Disk}
    (hSound : d.IsSound)
    (exclusions : List Exclusion) :
    ((exclusions.foldl leaveOut q).run d).failure =
        (q.run d).failure ∧
      ((exclusions.foldl leaveOut q).run d).records =
        (q.run d).records.filter fun record =>
          exclusions.all (·.spares record) := by
  induction exclusions generalizing q with
  | nil => simp
  | cons e rest ih =>
      have hFirst := run_leaveOut hWired hAppended hIgnore hSound e
      have hRest :=
        ih (hWired.leaveOut e) hAppended hIgnore
      rw [List.foldl_cons]
      refine ⟨hRest.1.trans hFirst.1, ?_⟩
      rw [hRest.2, hFirst.2, List.filter_filter]
      simp only [List.all_cons, Bool.and_comm]

/- The exclusions of the masks that can be read. -/
def exclusionsOf (masks : List String) : List Exclusion :=
  masks.filterMap fun mask => (Exclusion.compile mask).toOption

theorem mapM_compile_eq
    {masks : List String}
    (hMasks :
      ∀ mask ∈ masks, ∃ e, Exclusion.compile mask = .ok e) :
    masks.mapM Exclusion.compile = .ok (exclusionsOf masks) := by
  induction masks with
  | nil => rfl
  | cons mask rest ih =>
      rw [List.forall_mem_cons] at hMasks
      rcases hMasks with ⟨⟨e, hFirst⟩, hRest⟩
      rw [List.mapM_cons, hFirst, ih hRest]
      simp [exclusionsOf, hFirst, Except.toOption, bind,
        Except.bind, pure, Except.pure]

theorem foldlM_exclude_eq
    {calls : List (List String)}
    (hCalls :
      ∀ masks ∈ calls, ∀ mask ∈ masks,
        ∃ e, Exclusion.compile mask = .ok e)
    (q : Query) :
    calls.foldlM exclude q =
      .ok ((exclusionsOf calls.flatten).foldl leaveOut q) := by
  induction calls generalizing q with
  | nil => rfl
  | cons masks rest ih =>
      rw [List.forall_mem_cons] at hCalls
      rcases hCalls with ⟨hMasks, hRest⟩
      have hFirst :
          q.exclude masks =
            .ok ((exclusionsOf masks).foldl leaveOut q) :=
        exclude_eq_ok_iff.mpr ⟨_, mapM_compile_eq hMasks, rfl⟩
      rw [List.foldlM_cons, hFirst]
      refine (ih hRest _).trans ?_
      simp only [exclusionsOf, List.flatten_cons,
        List.filterMap_append, List.foldl_append]

/-
  To exclude is to filter what is found, without any change of
  its order. So calls can be made in any order.
-/
theorem excluding_is_filtering
    (hBuilt : q.Built)
    (hAppended : q.appended = [])
    (hIgnore : q.ignoreUnreadable = true)
    {d : Disk}
    (hSound : d.IsSound) :
    (∀ mask e,
      Exclusion.compile mask = .ok e →
        ∃ excluded,
          q.exclude [mask] = .ok excluded ∧
          (excluded.run d).failure = (q.run d).failure ∧
          (excluded.run d).records =
            (q.run d).records.filter e.spares) ∧
    ∀ calls others : List (List String),
      calls.Perm others →
        (∀ masks ∈ calls, ∀ mask ∈ masks,
          ∃ e, Exclusion.compile mask = .ok e) →
        ∃ first second,
          calls.foldlM exclude q = .ok first ∧
          others.foldlM exclude q = .ok second ∧
          (first.run d).failure = (second.run d).failure ∧
          (first.run d).records = (second.run d).records := by
  have hWired := hBuilt.wired
  refine ⟨?_, ?_⟩
  · intro mask e hMask
    refine ⟨q.leaveOut e, ?_,
      run_leaveOut hWired hAppended hIgnore hSound e⟩
    unfold exclude
    rw [List.mapM_cons, hMask]
    rfl
  · intro calls others hPerm hCalls
    have hOthers :
        ∀ masks ∈ others, ∀ mask ∈ masks,
          ∃ e, Exclusion.compile mask = .ok e :=
      fun masks hMasks => hCalls masks (hPerm.mem_iff.mpr hMasks)
    refine ⟨_, _, foldlM_exclude_eq hCalls q,
      foldlM_exclude_eq hOthers q, ?_, ?_⟩
    · rw [(run_foldl_leaveOut hWired hAppended hIgnore hSound _).1,
        (run_foldl_leaveOut hWired hAppended hIgnore hSound _).1]
    · rw [(run_foldl_leaveOut hWired hAppended hIgnore hSound _).2,
        (run_foldl_leaveOut hWired hAppended hIgnore hSound _).2]
      have hSame :
          (exclusionsOf calls.flatten).Perm
            (exclusionsOf others.flatten) :=
        hPerm.flatten.filterMap _
      congr 1
      funext record
      rw [Bool.eq_iff_iff, List.all_eq_true, List.all_eq_true]
      exact forall_congr' fun e => by rw [hSame.mem_iff]

/- The files of a library, in all its directories. -/
def ofLibrary : Query :=
  { requests := [⟨"*.php", .file⟩]
    locations := ["lib/**"] }

theorem excluding_from_library :
    ∃ excluded,
      ofLibrary.exclude ["sub/**"] = .ok excluded ∧
      (excluded.run Disk.library).failure =
        (ofLibrary.run Disk.library).failure ∧
      (excluded.run Disk.library).records =
        (ofLibrary.run Disk.library).records.filter
          (Exclusion.spares
            ⟨⟨"sub", .floating
              [.literal 's', .literal 'u', .literal 'b']⟩,
              .subtree⟩) := by
  have hBuilt : ofLibrary.Built := by
    have hAsked :
        ask {} .file ["*.php"] =
          .ok { requests := [⟨"*.php", .file⟩] } := rfl
    have hPlaced :
        lookIn { requests := [⟨"*.php", .file⟩] } "/**" ["lib"] =
          .ok ofLibrary := rfl
    exact .lookIn (.ask .new hAsked) hPlaced
  exact (excluding_is_filtering hBuilt rfl rfl
    Disk.isSound_library).1 "sub/**" _ rfl

end Query

end SymbolAtlas
