import SymbolAtlas.Proofs.Search.Entering

/-
  Remembered answers change nothing but the number of tests.

  A walk that tests its filters anew for every goal is compared
  with one that remembers the answers at each entry. The second
  makes the tests of the first in the same order, each of them
  once, and finds the same records in between.

  Key definitions:
    * `Search.Trace.recalled`
    * `Search.Walker.walkAnew`
    * `Search.Walker.Knows`

  Key theorems:
    * `Search.Trace.recalled_append`
    * `Search.Walker.visit_eq_recalled`
    * `Search.Walker.each_test_is_made_once`
-/

------------------------------------------------------------
-- Repeated Tests
------------------------------------------------------------

namespace SymbolAtlas

namespace Search

variable {ι : Type} [DecidableEq ι]
variable {told more : List (ι × Record)}

/- The tests among some events. -/
def testsOf (events : List (Event ι)) : List (ι × Record) :=
  events.filterMap Event.test?

/- The events without the tests that were made before. -/
def recallEvents :
    List (ι × Record) → List (Event ι) → List (Event ι)
| _, [] => []
| told, .found record :: rest =>
    .found record :: recallEvents told rest
| told, .tested filter record :: rest =>
    if (filter, record) ∈ told then recallEvents told rest
    else
      .tested filter record ::
        recallEvents (told ++ [(filter, record)]) rest

/- It makes no difference to be told of a test twice. -/
omit [DecidableEq ι] in
theorem mem_append_cons_iff
    {test : ι × Record}
    (hTold : test ∈ told)
    (later : List (ι × Record))
    (other : ι × Record) :
    other ∈ told ++ test :: later ↔ other ∈ told ++ later := by
  simp only [List.mem_append, List.mem_cons]
  constructor
  · rintro (hOld | rfl | hNew)
    · exact Or.inl hOld
    · exact Or.inl hTold
    · exact Or.inr hNew
  · exact Or.imp_right Or.inr

/- Only the tests that occur need to be told of. -/
theorem recallEvents_congr
    {events : List (Event ι)}
    (hSame :
      ∀ test ∈ testsOf events, test ∈ told ↔ test ∈ more) :
    recallEvents told events = recallEvents more events := by
  induction events generalizing told more with
  | nil => rfl
  | cons event rest ih =>
      cases event with
      | found record =>
          rw [recallEvents, recallEvents, ih hSame]
      | tested filter record =>
          change
            ∀ test ∈ (filter, record) :: testsOf rest, _
              at hSame
          rw [List.forall_mem_cons] at hSame
          rcases hSame with ⟨hHere, hRest⟩
          have hLater :
              recallEvents (told ++ [(filter, record)]) rest =
                recallEvents (more ++ [(filter, record)])
                  rest := by
            apply ih
            intro test hTest
            rw [List.mem_append, List.mem_append,
              hRest test hTest]
          rw [recallEvents, recallEvents, hLater, ih hRest]
          exact if_congr hHere rfl rfl

theorem recallEvents_append
    (told : List (ι × Record))
    (first rest : List (Event ι)) :
    recallEvents told (first ++ rest) =
      recallEvents told first ++
        recallEvents (told ++ testsOf first) rest := by
  induction first generalizing told with
  | nil =>
      change _ = recallEvents (told ++ []) rest
      rw [List.append_nil]
      rfl
  | cons event others ih =>
      cases event with
      | found record =>
          rw [List.cons_append, recallEvents, recallEvents, ih]
          rfl
      | tested filter record =>
          have hTests :
              testsOf (.tested filter record :: others) =
                (filter, record) :: testsOf others :=
            rfl
          rw [List.cons_append, recallEvents, recallEvents, ih,
            ih, hTests]
          split
          · next hTold =>
              congr 1
              apply recallEvents_congr
              intro test _
              exact (mem_append_cons_iff hTold _ _).symm
          · rw [List.append_assoc]
            rfl

/- What is left are tests that have not been told of, once. -/
theorem tests_recallEvents
    (told : List (ι × Record))
    (events : List (Event ι)) :
    (testsOf (recallEvents told events)).Nodup ∧
      ∀ test ∈ testsOf (recallEvents told events),
        test ∉ told := by
  induction events generalizing told with
  | nil => exact ⟨List.nodup_nil, by rintro test ⟨⟩⟩
  | cons event rest ih =>
      cases event with
      | found record => exact ih told
      | tested filter record =>
          rw [recallEvents]
          split
          · exact ih told
          · next hNew =>
              rcases ih (told ++ [(filter, record)]) with
                ⟨hNodup, hLater⟩
              simp only [List.mem_append, List.mem_singleton,
                not_or] at hLater
              change (_ :: testsOf _).Nodup ∧
                ∀ test ∈ _ :: testsOf _, test ∉ told
              rw [List.nodup_cons, List.forall_mem_cons]
              exact
                ⟨⟨fun hAgain => (hLater _ hAgain).2 rfl, hNodup⟩,
                  hNew, fun test hTest => (hLater test hTest).1⟩

/- The records that are found stay. -/
theorem records_recallEvents
    (told : List (ι × Record))
    (events : List (Event ι)) :
    (recallEvents told events).filterMap Event.record? =
      events.filterMap Event.record? := by
  induction events generalizing told with
  | nil => rfl
  | cons event rest ih =>
      cases event with
      | found record =>
          change _ :: List.filterMap _ _ = _ :: List.filterMap _ _
          rw [ih]
      | tested filter record =>
          rw [recallEvents, List.filterMap_cons_none rfl]
          split
          · exact ih told
          · rw [List.filterMap_cons_none rfl]
            exact ih _

namespace Trace

/- What happens if the tests told of are not made again. -/
def recalled (told : List (ι × Record)) (t : Trace ι) : Trace ι :=
  ⟨recallEvents told t.events, t.failure⟩

theorem recalled_append
    (told : List (ι × Record))
    (t u : Trace ι) :
    (t ++ u).recalled told =
      t.recalled told ++ u.recalled (told ++ t.tests) := by
  obtain ⟨events, failure⟩ := t
  cases failure with
  | some error => rfl
  | none =>
      change
        Trace.mk (recallEvents told (events ++ u.events))
            u.failure =
          ⟨_ ++ _, u.failure⟩
      rw [recallEvents_append]
      rfl

omit [DecidableEq ι] in
theorem mem_tests_append
    {t u : Trace ι}
    {test : ι × Record}
    (hTest : test ∈ (t ++ u).tests) :
    test ∈ t.tests ∨ test ∈ u.tests := by
  change test ∈ (append t u).tests at hTest
  unfold append at hTest
  split at hTest
  · exact Or.inl hTest
  · simpa [tests, List.filterMap_append] using hTest

end Trace

end Search

end SymbolAtlas

------------------------------------------------------------
-- Walking Without Remembering
------------------------------------------------------------

namespace SymbolAtlas

namespace Search

namespace Walker

/- Test filters until one fails. -/
def trials
    (w : Walker)
    (record : Record) : List Nat → List (Event Nat)
| [] => []
| index :: rest =>
    .tested index record ::
      if w.answer record index then w.trials record rest else []

/- The tests before going down, made for every deep goal. -/
def trialsFor
    (w : Walker)
    (record : Record) : List Goal → List (Event Nat)
| [] => []
| goal :: rest =>
    if goal.deep then
      w.trials record w.descent ++ w.trialsFor record rest
    else w.trialsFor record rest

def trialsBelow
    (w : Walker)
    (record : Record)
    (goals : List Goal) : List (Event Nat) :=
  if record.isDirectory then w.trialsFor record goals else []

/- The tests for every goal that is met, and the finding. -/
def examineAnew
    (w : Walker)
    (record : Record) : List Goal → List (Event Nat)
| [] => []
| goal :: rest =>
    if goal.isMetBy record then
      w.trials record w.content ++
        if w.passes w.content record then [.found record]
        else w.examineAnew record rest
    else w.examineAnew record rest

/- What happens at one entry if all tests are made anew. -/
def visitAnew
    (w : Walker)
    (goals : List Goal)
    (below : List Goal → Record → Trace Nat)
    (record : Record) : Trace Nat :=
  let before : Trace Nat := ⟨w.trialsBelow record goals, none⟩
  let deeper := w.deeper goals record
  let down :=
    if deeper.isEmpty then .empty else below deeper record
  let found : Trace Nat := ⟨w.examineAnew record goals, none⟩
  if w.childFirst then before ++ down ++ found
  else before ++ found ++ down

/- Walk a directory, testing filters anew whenever asked. -/
def traverseAnew (w : Walker) (d : Disk) :
    (fuel : Nat) → String → List Goal → List String → Trace Nat
| 0, _, _, _ => .empty
| fuel + 1, directory, goals, subdirs =>
    if w.isTooDeep subdirs then .empty
    else
      match w.entries d directory (Path.joined subdirs) with
      | .error fault => w.unreadable directory fault
      | .ok records =>
          .concat (records.map (w.visitAnew goals
            fun deeper record =>
              traverseAnew w d fuel record.path deeper
                (subdirs ++ [record.name])))

def walkAnew
    (w : Walker)
    (d : Disk)
    (directory : String)
    (goals : List Goal) : Trace Nat :=
  w.traverseAnew d (depthBound d) directory goals []

variable {w : Walker} {record : Record}

theorem record_of_mem_trials
    {indexes : List Nat}
    {test : Nat × Record}
    (hTest : test ∈ testsOf (w.trials record indexes)) :
    test.2 = record := by
  induction indexes with
  | nil => cases hTest
  | cons index rest ih =>
      rcases List.mem_cons.mp hTest with rfl | hRest
      · rfl
      · split at hRest
        · exact ih hRest
        · cases hRest

theorem record_of_mem_trialsFor
    {goals : List Goal}
    {test : Nat × Record}
    (hTest : test ∈ testsOf (w.trialsFor record goals)) :
    test.2 = record := by
  induction goals with
  | nil => cases hTest
  | cons goal rest ih =>
      unfold trialsFor at hTest
      split at hTest
      · unfold testsOf at hTest
        rw [List.filterMap_append, List.mem_append] at hTest
        rcases hTest with hHere | hRest
        · exact record_of_mem_trials hHere
        · exact ih hRest
      · exact ih hTest

theorem record_of_mem_trialsBelow
    {goals : List Goal}
    {test : Nat × Record}
    (hTest : test ∈ testsOf (w.trialsBelow record goals)) :
    test.2 = record := by
  unfold trialsBelow at hTest
  split at hTest
  · exact record_of_mem_trialsFor hTest
  · cases hTest

theorem record_of_mem_examineAnew
    {goals : List Goal}
    {test : Nat × Record}
    (hTest : test ∈ testsOf (w.examineAnew record goals)) :
    test.2 = record := by
  induction goals with
  | nil => cases hTest
  | cons goal rest ih =>
      unfold examineAnew at hTest
      split at hTest
      · unfold testsOf at hTest
        rw [List.filterMap_append, List.mem_append] at hTest
        rcases hTest with hHere | hRest
        · exact record_of_mem_trials hHere
        · split at hRest
          · cases hRest
          · exact ih hRest
      · exact ih hTest

end Walker

end Search

end SymbolAtlas

------------------------------------------------------------
-- One Entry
------------------------------------------------------------

namespace SymbolAtlas

namespace Search

namespace Walker

/- The answers remembered are those of the tests told of. -/
def Knows
    (w : Walker)
    (record : Record)
    (memo : Memo)
    (told : List (Nat × Record)) : Prop :=
  ∀ index,
    memo.lookup index =
      if (index, record) ∈ told then some (w.answer record index)
      else none

variable {w : Walker} {record : Record} {memo : Memo}
variable {told more : List (Nat × Record)}

theorem Knows.honest
    (hKnows : w.Knows record memo told) :
    w.Honest record memo := by
  intro index result hLookup
  rw [hKnows index] at hLookup
  split at hLookup <;> cases hLookup
  rfl

/- Only tests of the entry itself need to be told of. -/
theorem Knows.congr
    (hKnows : w.Knows record memo told)
    (hSame :
      ∀ index, (index, record) ∈ told ↔ (index, record) ∈ more) :
    w.Knows record memo more := by
  intro index
  rw [hKnows index]
  exact if_congr (hSame index) rfl rfl

theorem Knows.remember
    (hKnows : w.Knows record memo told)
    (index : Nat) :
    w.Knows record ((index, w.answer record index) :: memo)
      (told ++ [(index, record)]) := by
  intro other
  rw [List.lookup_cons]
  split
  · next hSame =>
      rw [beq_iff_eq.mp hSame, if_pos (by simp)]
  · next hOther =>
      rw [hKnows other]
      apply if_congr _ rfl rfl
      have hNe : other ≠ index := by simpa using hOther
      simp [hNe]

/-
  Filters are tested if they have not been before, and then they
  are known. The induction is on the filters to be tested.
-/
theorem prove_eq_recalled
    (hKnows : w.Knows record memo told)
    (indexes : List Nat) :
    (w.prove record indexes memo).events =
        recallEvents told (w.trials record indexes) ∧
      w.Knows record (w.prove record indexes memo).memo
        (told ++ testsOf (w.trials record indexes)) := by
  induction indexes generalizing memo told with
  | nil =>
      refine ⟨rfl, ?_⟩
      change w.Knows record memo (told ++ [])
      rwa [List.append_nil]
  | cons index rest ih =>
      have hLookup := hKnows index
      have hTests (later : List (Event Nat)) :
          testsOf (.tested index record :: later) =
            (index, record) :: testsOf later :=
        rfl
      unfold prove trials
      rw [hTests, recallEvents]
      by_cases hTold : (index, record) ∈ told
      · -- The answer is known and the test is not repeated.
        rw [if_pos hTold] at hLookup
        rw [if_pos hTold, hLookup]
        have hKnown (later : List (Event Nat)) (other : Nat) :
            (other, record) ∈ told ++ testsOf later ↔
              (other, record) ∈
                told ++ (index, record) :: testsOf later :=
          (mem_append_cons_iff hTold _ _).symm
        cases w.answer record index with
        | true =>
            rcases ih hKnows with ⟨hEvents, hMemo⟩
            exact ⟨hEvents, hMemo.congr (hKnown _)⟩
        | false =>
            refine ⟨rfl, Knows.congr ?_ (hKnown _)⟩
            change w.Knows record memo (told ++ [])
            rwa [List.append_nil]
      · rw [if_neg hTold] at hLookup
        rw [if_neg hTold, hLookup]
        have hMemo := hKnows.remember index
        cases hAnswer : w.answer record index with
        | true =>
            rw [hAnswer] at hMemo
            rcases ih hMemo with ⟨hEvents, hLater⟩
            refine ⟨congrArg _ hEvents, ?_⟩
            rwa [List.append_assoc] at hLater
        | false =>
            rw [hAnswer] at hMemo
            exact ⟨rfl, hMemo⟩

/- So it is for the goals that are pursued below an entry. -/
theorem descendFor_eq_recalled
    (hKnows : w.Knows record memo told)
    (goals : List Goal) :
    (w.descendFor record goals memo).2.events =
        recallEvents told (w.trialsFor record goals) ∧
      w.Knows record (w.descendFor record goals memo).2.memo
        (told ++ testsOf (w.trialsFor record goals)) := by
  induction goals generalizing memo told with
  | nil =>
      refine ⟨rfl, ?_⟩
      change w.Knows record memo (told ++ [])
      rwa [List.append_nil]
  | cons goal rest ih =>
      unfold descendFor trialsFor
      split
      · rcases prove_eq_recalled hKnows w.descent with
          ⟨hEvents, hMemo⟩
        rcases ih hMemo with ⟨hMore, hLater⟩
        dsimp only
        rw [hEvents, hMore, recallEvents_append]
        refine ⟨rfl, ?_⟩
        unfold testsOf at hLater ⊢
        rwa [List.filterMap_append, ← List.append_assoc]
      · exact ih hKnows

theorem examine_eq_recalled
    (hKnows : w.Knows record memo told)
    (goals : List Goal) :
    w.examine goals record memo =
      Trace.recalled told ⟨w.examineAnew record goals, none⟩ := by
  induction goals generalizing memo told with
  | nil => rfl
  | cons goal rest ih =>
      unfold examine examineAnew
      split
      · rcases prove_eq_recalled hKnows w.content with
          ⟨hEvents, hMemo⟩
        dsimp only
        rw [(holds_prove hKnows.honest w.content).1, hEvents,
          ih hMemo]
        unfold Trace.recalled
        rw [recallEvents_append]
        split <;> rfl
      · exact ih hKnows

/- No test has been made on what these names lead to or past. -/
def Untried
    (told : List (Nat × Record))
    (names : List String) : Prop :=
  ∀ test ∈ told, ¬ names <+: test.2.names

theorem Untried.append
    {names : List String}
    (hTold : Untried told names)
    (hMore : Untried more names) :
    Untried (told ++ more) names :=
  List.forall_mem_append.mpr ⟨hTold, hMore⟩

/- At an entry that has not been tested nothing is known yet. -/
theorem Untried.knows
    (hUntried : Untried told record.names) :
    w.Knows record [] told := by
  intro index
  rw [if_neg]
  · rfl
  · exact fun hTest => hUntried _ hTest List.prefix_rfl

theorem mem_tests_visitAnew
    {goals : List Goal}
    {below : List Goal → Record → Trace Nat}
    {test : Nat × Record}
    (hBelow :
      ∀ deeper, ∀ test ∈ (below deeper record).tests,
        ∃ step, record.names ++ [step] <+: test.2.names)
    (hTest : test ∈ (w.visitAnew goals below record).tests) :
    record.names <+: test.2.names := by
  have hBefore
      (hMem : test ∈ testsOf (w.trialsBelow record goals)) :
      record.names <+: test.2.names := by
    rw [record_of_mem_trialsBelow hMem]
  have hFound
      (hMem : test ∈ testsOf (w.examineAnew record goals)) :
      record.names <+: test.2.names := by
    rw [record_of_mem_examineAnew hMem]
  have hDown
      (hMem :
        test ∈
          (if (w.deeper goals record).isEmpty then
            (.empty : Trace Nat)
          else below (w.deeper goals record) record).tests) :
      record.names <+: test.2.names := by
    split at hMem
    · cases hMem
    · rcases hBelow _ test hMem with ⟨step, hStep⟩
      exact (List.prefix_append _ _).trans hStep
  unfold visitAnew at hTest
  dsimp only at hTest
  split at hTest
  · rcases Trace.mem_tests_append hTest with hFront | hMem
    · rcases Trace.mem_tests_append hFront with hMem | hMem
      · exact hBefore hMem
      · exact hDown hMem
    · exact hFound hMem
  · rcases Trace.mem_tests_append hTest with hFront | hMem
    · rcases Trace.mem_tests_append hFront with hMem | hMem
      · exact hBefore hMem
      · exact hFound hMem
    · exact hDown hMem

/- The tests before going down, and what is known after them. -/
theorem descend_eq_recalled
    (hUntried : Untried told record.names)
    (goals : List Goal) :
    (w.descend goals record).2.events =
        recallEvents told (w.trialsBelow record goals) ∧
      w.Knows record (w.descend goals record).2.memo
        (told ++ testsOf (w.trialsBelow record goals)) := by
  unfold descend trialsBelow
  split
  · exact descendFor_eq_recalled hUntried.knows goals
  · refine ⟨rfl, ?_⟩
    change w.Knows record [] (told ++ [])
    rw [List.append_nil]
    exact hUntried.knows

/- What has been tested at an entry does not lie below it. -/
theorem untried_below
    {tests : List (Nat × Record)}
    (hHere : ∀ test ∈ tests, test.2 = record)
    (step : String) :
    Untried tests (record.names ++ [step]) := by
  intro test hTest hPrefix
  rw [hHere test hTest] at hPrefix
  have hLength := hPrefix.length_le
  rw [List.length_append, List.length_singleton] at hLength
  omega

theorem Untried.below
    {names : List String}
    (hUntried : Untried told names)
    (step : String) :
    Untried told (names ++ [step]) :=
  fun test hTest hPrefix =>
    hUntried test hTest ((List.prefix_append _ _).trans hPrefix)

/-
  One entry: the tests before and behind those below it are told
  of one another, and those below are on other entries.
-/
theorem visit_eq_recalled
    {goals : List Goal}
    {below other : List Goal → Record → Trace Nat}
    (hUntried : Untried told record.names)
    (hBelow :
      ∀ deeper known,
        (∀ step, Untried known (record.names ++ [step])) →
          below deeper record =
            (other deeper record).recalled known)
    (hTests :
      ∀ deeper, ∀ test ∈ (other deeper record).tests,
        ∃ step, record.names ++ [step] <+: test.2.names) :
    w.visit goals below record =
      (w.visitAnew goals other record).recalled told := by
  rcases descend_eq_recalled (w := w) hUntried goals with
    ⟨hEvents, hMemo⟩
  let tried := testsOf (w.trialsBelow record goals)
  have hTried (step : String) :
      Untried (told ++ tried) (record.names ++ [step]) :=
    (hUntried.below step).append
      (untried_below (fun _ => record_of_mem_trialsBelow) step)
  have hFoundTests (step : String) :
      Untried (testsOf (w.examineAnew record goals))
        (record.names ++ [step]) :=
    untried_below (fun _ => record_of_mem_examineAnew) step
  let down : Trace Nat :=
    if (w.deeper goals record).isEmpty then .empty
    else other (w.deeper goals record) record
  have hDown (known : List (Nat × Record))
      (hKnown :
        ∀ step, Untried known (record.names ++ [step])) :
      (if (w.deeper goals record).isEmpty then
          (.empty : Trace Nat)
        else below (w.deeper goals record) record) =
      down.recalled known := by
    unfold down
    split
    · rfl
    · exact hBelow _ known hKnown
  have hApart (index : Nat) : (index, record) ∉ down.tests := by
    unfold down
    split
    · rintro ⟨⟩
    · intro hTest
      rcases hTests _ _ hTest with ⟨step, hStep⟩
      have hLength := hStep.length_le
      rw [List.length_append, List.length_singleton] at hLength
      exact absurd hLength (Nat.not_succ_le_self _)
  unfold visit visitAnew
  dsimp only
  rw [goals_descend, hEvents]
  split
  · have hStill :
        w.Knows record (w.descend goals record).2.memo
          (told ++ tried ++ down.tests) :=
      hMemo.congr fun index => by
        rw [List.mem_append (s := told ++ tried),
          or_iff_left (hApart index)]
    rw [Trace.append_assoc, Trace.append_assoc,
      Trace.recalled_append, Trace.recalled_append,
      hDown (told ++ tried) hTried, examine_eq_recalled hStill goals]
    rfl
  · have hBehind (step : String) :=
      (hTried step).append (hFoundTests step)
    rw [Trace.append_assoc, Trace.append_assoc,
      Trace.recalled_append, Trace.recalled_append,
      examine_eq_recalled hMemo goals, hDown _ hBehind]
    rfl

end Walker

end Search

end SymbolAtlas

------------------------------------------------------------
-- Whole Walks
------------------------------------------------------------

namespace SymbolAtlas

namespace Search

namespace Walker

variable {w : Walker} {d : Disk} {base : String}
variable {told : List (Nat × Record)}

theorem mem_tests_concat
    {traces : List (Trace Nat)}
    {test : Nat × Record}
    (hTest : test ∈ (Trace.concat traces).tests) :
    ∃ trace ∈ traces, test ∈ trace.tests := by
  induction traces with
  | nil => cases hTest
  | cons first rest ih =>
      rcases Trace.mem_tests_append hTest with hFirst | hRest
      · exact ⟨first, List.mem_cons_self, hFirst⟩
      · rcases ih hRest with ⟨trace, hTrace, hMem⟩
        exact ⟨trace, List.mem_cons_of_mem _ hTrace, hMem⟩

/- Entry after entry: none is tested with one before it. -/
theorem concat_eq_recalled
    {entries : List Record}
    {f g : Record → Trace Nat}
    (hTests :
      ∀ entry ∈ entries, ∀ test ∈ (g entry).tests,
        entry.names <+: test.2.names)
    (hEach :
      ∀ entry ∈ entries, ∀ known,
        Untried known entry.names →
          f entry = (g entry).recalled known)
    (hApart :
      entries.Pairwise fun one other =>
        ∀ record : Record,
          one.names <+: record.names →
            ¬ other.names <+: record.names)
    (hUntried : ∀ entry ∈ entries, Untried told entry.names) :
    Trace.concat (entries.map f) =
      (Trace.concat (entries.map g)).recalled told := by
  induction entries generalizing told with
  | nil => rfl
  | cons first rest ih =>
      rw [List.forall_mem_cons] at hTests hEach hUntried
      rw [List.pairwise_cons] at hApart
      rw [List.map_cons, List.map_cons, Trace.concat_cons,
        Trace.concat_cons, Trace.recalled_append,
        hEach.1 told hUntried.1]
      congr 1
      apply ih hTests.2 hEach.2 hApart.2
      intro entry hEntry
      apply (hUntried.2 entry hEntry).append
      intro test hTest
      exact hApart.1 entry hEntry test.2 (hTests.1 test hTest)

/- Entries of one directory have nothing below them in common. -/
theorem pairwise_apart_listing
    (hSound : d.IsSound)
    {trail : List String}
    (hTrail : ∀ step ∈ trail, Disk.IsName step) :
    (w.listing d (Record.pathAlong base trail)
      (Path.joined trail)).Pairwise fun one other =>
        ∀ record : Record,
          one.names <+: record.names →
            ¬ other.names <+: record.names := by
  apply (pairwise_name_ne_listing hSound hTrail).imp_of_mem
  intro one other hOne hOther hNe record hFirst hSecond
  rcases mem_listing_iff.mp hOne with ⟨step, hStep⟩
  rcases mem_listing_iff.mp hOther with ⟨turn, hTurn⟩
  rw [hStep.name_eq hSound hTrail, hTurn.name_eq hSound hTrail]
    at hNe
  rw [hStep.names_eq hSound hTrail] at hFirst
  rw [hTurn.names_eq hSound hTrail] at hSecond
  have hPrefix :=
    List.prefix_of_prefix_length_le hFirst hSecond (by simp)
  have hSame := hPrefix.eq_of_length (by simp)
  rw [List.append_singleton_inj] at hSame
  exact hNe hSame.2

/- What is tested below a trail has names that go on from it. -/
theorem mem_tests_traverseAnew
    (hSound : d.IsSound)
    {fuel : Nat}
    {goals : List Goal}
    {trail : List String}
    (hTrail : ∀ step ∈ trail, Disk.IsName step)
    {test : Nat × Record}
    (hTest :
      test ∈
        (w.traverseAnew d fuel (Record.pathAlong base trail) goals
          trail).tests) :
    ∃ step, trail ++ [step] <+: test.2.names := by
  induction fuel generalizing goals trail test with
  | zero => cases hTest
  | succ fuel ih =>
      rw [traverseAnew] at hTest
      split at hTest
      · cases hTest
      · split at hTest
        · unfold unreadable at hTest
          split at hTest <;> cases hTest
        · next records hEntries =>
            rcases mem_tests_concat hTest with
              ⟨trace, hTrace, hMem⟩
            rcases List.mem_map.mp hTrace with
              ⟨entry, hEntry, rfl⟩
            rw [← listing_of_entries hEntries] at hEntry
            rcases mem_listing_iff.mp hEntry with
              ⟨step, hListed⟩
            have hNames := hListed.names_eq hSound hTrail
            refine ⟨step, ?_⟩
            rw [← hNames]
            apply mem_tests_visitAnew _ hMem
            intro deeper below hBelow
            rw [hListed.path_eq, hListed.name_eq hSound hTrail]
              at hBelow
            rw [hNames]
            exact ih (hListed.isName hSound hTrail) hBelow

/-
  Going down, a walk that remembers makes the tests that have not
  been made. The induction is on the levels left; nothing below
  the trail may have been tested before.
-/
theorem traverse_eq_recalled
    (hSound : d.IsSound)
    {fuel : Nat}
    {goals : List Goal}
    {trail : List String}
    (hTrail : ∀ step ∈ trail, Disk.IsName step)
    (hUntried : ∀ step, Untried told (trail ++ [step])) :
    w.traverse d fuel (Record.pathAlong base trail) goals trail =
      (w.traverseAnew d fuel (Record.pathAlong base trail) goals
        trail).recalled told := by
  induction fuel generalizing goals trail told with
  | zero => rfl
  | succ fuel ih =>
      rw [traverse, traverseAnew]
      split
      · rfl
      · cases hEntries :
            w.entries d (Record.pathAlong base trail)
              (Path.joined trail) with
        | error fault =>
            dsimp only
            unfold unreadable
            split <;> rfl
        | ok records =>
            have hListing := listing_of_entries hEntries
            have hListed {entry : Record}
                (hEntry : entry ∈ records) :
                ∃ step, Listed d base trail step entry := by
              rw [← hListing] at hEntry
              exact mem_listing_iff.mp hEntry
            have hBelow {entry : Record}
                (hEntry : entry ∈ records)
                (deeper : List Goal) :
                ∀ test ∈ (w.traverseAnew d fuel entry.path deeper
                    (trail ++ [entry.name])).tests,
                  ∃ step,
                    entry.names ++ [step] <+: test.2.names := by
              rcases hListed hEntry with ⟨step, hStep⟩
              rw [hStep.path_eq, hStep.name_eq hSound hTrail,
                hStep.names_eq hSound hTrail]
              intro test hTest
              exact mem_tests_traverseAnew hSound
                (hStep.isName hSound hTrail) hTest
            dsimp only
            apply concat_eq_recalled
            · intro entry hEntry test hTest
              exact mem_tests_visitAnew (hBelow hEntry) hTest
            · intro entry hEntry known hKnown
              apply visit_eq_recalled hKnown _ (hBelow hEntry)
              intro deeper known hKnown
              rcases hListed hEntry with ⟨step, hStep⟩
              rw [hStep.path_eq, hStep.name_eq hSound hTrail]
              rw [hStep.names_eq hSound hTrail] at hKnown
              exact ih (hStep.isName hSound hTrail) hKnown
            · rw [← hListing]
              exact pairwise_apart_listing hSound hTrail
            · intro entry hEntry
              rcases hListed hEntry with ⟨step, hStep⟩
              rw [hStep.names_eq hSound hTrail]
              exact hUntried step

/-
  No filter is tested twice on an entry. Apart from repeated tests
  the walk does what it would do if it remembered nothing: the
  same tests, the same records and the same failure, in the same
  order.
-/
theorem each_test_is_made_once
    (hSound : d.IsSound)
    (w : Walker)
    (base : String)
    (goals : List Goal) :
    (w.walk d base goals).tests.Nodup ∧
      (w.walk d base goals).records =
        (w.walkAnew d base goals).records ∧
      w.walk d base goals =
        (w.walkAnew d base goals).recalled [] := by
  have hNone : ∀ step ∈ ([] : List String), Disk.IsName step :=
    List.forall_mem_nil _
  have hWalk :
      w.walk d base goals =
        (w.walkAnew d base goals).recalled [] :=
    traverse_eq_recalled hSound hNone
      fun step => List.forall_mem_nil _
  rw [hWalk]
  exact
    ⟨(tests_recallEvents [] _).1, records_recallEvents [] _, rfl⟩

/-
  Going down for three goals, a filter that also decides on
  results, twice, is tested once on the directory of the library.
-/
theorem library_is_tested_once :
    let w : Walker :=
      { filters := [fun _ => true], content := [0, 0],
        descent := [0], childFirst := true }
    let sub : Record :=
      ⟨"lib/sub", "sub", .dir, Node.directoryTime⟩
    (w.walk Disk.library "lib" everyGoal).tests.Nodup ∧
      (w.walk Disk.library "lib" everyGoal).records =
        (w.walkAnew Disk.library "lib" everyGoal).records ∧
      (w.walk Disk.library "lib" everyGoal).tests.count
        (0, sub) = 1 ∧
      (w.walkAnew Disk.library "lib" everyGoal).tests.count
        (0, sub) = 5 := by
  intro w sub
  have hOnce :=
    each_test_is_made_once Disk.isSound_library w "lib" everyGoal
  refine ⟨hOnce.1, hOnce.2.1, ?_, ?_⟩ <;> decide +kernel

end Walker

end Search

end SymbolAtlas
