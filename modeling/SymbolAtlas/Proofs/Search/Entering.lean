import SymbolAtlas.Proofs.Search.Exactness
import SymbolAtlas.Proofs.Search.Stops

/-
  What a walk goes through, and where it is cut short.

  The steps of a walk are the directories that it enters and all
  that it tests and finds, in order. They are the same whether or
  not it passes over directories that cannot be listed. If it does,
  such a directory counts as empty; if not, the walk ends at the
  first one that it enters. A consumer that asks for fewer records
  than come before does not notice.

  Key definitions:
    * `Search.Step`, `Search.Walker.steps`
    * `Search.Walker.walkOver`, a walk over given listings
    * `Disk.Shuts`

  Key theorems:
    * `Search.Walker.traverse_eq_concat`
    * `Search.Trace.records_take`, `Search.Trace.failure_take`
    * `Search.Walker.unlistable_directories_truncate`
-/

------------------------------------------------------------
-- Traces One After the Other
------------------------------------------------------------

namespace SymbolAtlas

namespace Search

namespace Trace

variable {ι : Type}

@[simp] theorem empty_append
    (t : Trace ι) :
    empty ++ t = t :=
  rfl

@[simp] theorem append_empty
    (t : Trace ι) :
    t ++ empty = t := by
  obtain ⟨events, failure⟩ := t
  cases failure with
  | none =>
      change Trace.mk (events ++ []) none = _
      rw [List.append_nil]
  | some error => rfl

theorem append_assoc
    (first second third : Trace ι) :
    first ++ second ++ third = first ++ (second ++ third) := by
  obtain ⟨events, failure⟩ := first
  obtain ⟨more, other⟩ := second
  cases failure with
  | some error => rfl
  | none =>
      cases other with
      | some error => rfl
      | none =>
          change
            Trace.mk (events ++ more ++ third.events)
                third.failure =
              ⟨events ++ (more ++ third.events), third.failure⟩
          rw [List.append_assoc]

/- Nothing happens behind a failure. -/
theorem fail_append
    (error : Error)
    (t : Trace ι) :
    fail error ++ t = fail error :=
  rfl

theorem concat_cons
    (first : Trace ι)
    (rest : List (Trace ι)) :
    concat (first :: rest) = first ++ concat rest :=
  rfl

theorem concat_append
    (front back : List (Trace ι)) :
    concat (front ++ back) = concat front ++ concat back := by
  induction front with
  | nil => rfl
  | cons first rest ih =>
      rw [List.cons_append, concat_cons, concat_cons, ih,
        append_assoc]

theorem concat_flatMap
    {α : Type}
    (items : List α)
    (f : α → List (Trace ι)) :
    concat (items.flatMap f) =
      concat (items.map fun item => concat (f item)) := by
  induction items with
  | nil => rfl
  | cons first rest ih =>
      rw [List.flatMap_cons, List.map_cons, concat_append,
        concat_cons, ih]

end Trace

end Search

end SymbolAtlas

------------------------------------------------------------
-- Stopping Early
------------------------------------------------------------

namespace SymbolAtlas

namespace Search

namespace Trace

variable {ι : Type}

/- Tests do not count, and the last record asked for ends it. -/
theorem takeEvents_spec
    (n : Nat)
    (events : List (Event ι)) :
    (takeEvents n events).1.filterMap Event.record? =
        (events.filterMap Event.record?).take n ∧
      (takeEvents n events).2 =
        decide (n ≤ (events.filterMap Event.record?).length) := by
  fun_induction takeEvents n events with
  | case1 events => simp
  | case2 n hSome =>
      cases n with
      | zero => exact absurd rfl hSome
      | succ n => exact ⟨rfl, rfl⟩
  | case3 n record rest events enough hRest ih =>
      rw [hRest] at ih
      dsimp only at ih
      simp [Event.record?, ih.1, ih.2]
  | case4 n filter record rest events enough hRest ih =>
      rw [hRest] at ih
      rw [List.filterMap_cons_none rfl, List.filterMap_cons_none rfl]
      exact ih

/- Who stops after some records has received the first ones. -/
theorem records_take
    (n : Nat)
    (t : Trace ι) :
    (t.take n).records = t.records.take n :=
  (takeEvents_spec n t.events).1

/- The failure is met by asking for more than there is. -/
theorem failure_take
    (n : Nat)
    (t : Trace ι) :
    (t.take n).failure =
      if n ≤ t.records.length then none else t.failure := by
  have hEnough := (takeEvents_spec n t.events).2
  unfold take
  dsimp only
  rw [hEnough]
  simp only [decide_eq_true_eq]
  rfl

end Trace

end Search

end SymbolAtlas

------------------------------------------------------------
-- Steps of a Walk
------------------------------------------------------------

namespace SymbolAtlas

/- The directory cannot be listed. -/
def Disk.Shuts (d : Disk) (directory : String) : Prop :=
  ∃ fault, d.list directory = .error fault

namespace Search

/- A walk enters a directory, or it tests or finds something. -/
inductive Step where
  | enters (directory : String)
  | does (event : Event Nat)
deriving DecidableEq

namespace Step

/- What is seen of a step from outside. -/
def event? : Step → Option (Event Nat)
| .enters _ => none
| .does event => some event

/- The trace of a step, given what becomes of entering. -/
def trace (entering : String → Trace Nat) : Step → Trace Nat
| .enters directory => entering directory
| .does event => ⟨[event], none⟩

variable {entering : String → Trace Nat}

theorem concat_does
    (events : List (Event Nat)) :
    Trace.concat ((events.map does).map (trace entering)) =
      ⟨events, none⟩ := by
  induction events with
  | nil => rfl
  | cons event rest ih =>
      rw [List.map_cons, List.map_cons, Trace.concat_cons, ih]
      rfl

/- Where every directory can be entered all steps are done. -/
theorem concat_eq_of_forall_empty
    {steps : List Step}
    (hEmpty :
      ∀ directory, enters directory ∈ steps →
        entering directory = .empty) :
    Trace.concat (steps.map (trace entering)) =
      ⟨steps.filterMap event?, none⟩ := by
  induction steps with
  | nil => rfl
  | cons step rest ih =>
      have hRest := ih fun directory hMem =>
        hEmpty directory (List.mem_cons_of_mem _ hMem)
      rw [List.map_cons, Trace.concat_cons, hRest]
      cases step with
      | enters directory =>
          have hHere := hEmpty directory List.mem_cons_self
          rw [trace, hHere]
          rfl
      | does event => rfl

end Step

namespace Walker

/- The steps at one entry, given those below a directory. -/
def stepsAt
    (w : Walker)
    (goals : List Goal)
    (below : List Goal → Record → List Step)
    (record : Record) : List Step :=
  let (deeper, proof) := w.descend goals record
  let down := if deeper.isEmpty then [] else below deeper record
  let found := w.examine goals record proof.memo
  let before := proof.events.map Step.does
  if w.childFirst then
    before ++ down ++ found.events.map Step.does
  else before ++ found.events.map Step.does ++ down

/- The steps below a directory, going down so many levels. -/
def stepsFrom (w : Walker) (d : Disk) :
    (fuel : Nat) → String → List Goal → List String → List Step
| 0, _, _, _ => []
| fuel + 1, directory, goals, subdirs =>
    if w.isTooDeep subdirs then []
    else
      .enters directory ::
        (w.listing d directory (Path.joined subdirs)).flatMap
          (w.stepsAt goals fun deeper record =>
            stepsFrom w d fuel record.path deeper
              (subdirs ++ [record.name]))

/- The steps of a walk that nothing stops. -/
def steps
    (w : Walker)
    (d : Disk)
    (directory : String)
    (goals : List Goal) : List Step :=
  w.stepsFrom d (depthBound d) directory goals []

/-
  Walk where every directory can be listed and what is in it is
  given.
-/
def traverseOver
    (w : Walker)
    (listed : String → String → List Record) :
    (fuel : Nat) → String → List Goal → List String → Trace Nat
| 0, _, _, _ => .empty
| fuel + 1, directory, goals, subdirs =>
    if w.isTooDeep subdirs then .empty
    else
      .concat ((listed directory (Path.joined subdirs)).map
        (w.visit goals fun deeper record =>
          traverseOver w listed fuel record.path deeper
            (subdirs ++ [record.name])))

def walkOver
    (w : Walker)
    (d : Disk)
    (listed : String → String → List Record)
    (directory : String)
    (goals : List Goal) : Trace Nat :=
  w.traverseOver listed (depthBound d) directory goals []

/- What the walk makes of a directory that it enters. -/
def entering
    (w : Walker)
    (d : Disk)
    (directory : String) : Trace Nat :=
  match d.list directory with
  | .error fault => w.unreadable directory fault
  | .ok _ => .empty

variable {w : Walker} {d : Disk} {goals : List Goal}

/- What happens at an entry is made up of the steps there. -/
theorem visit_eq_concat
    {entering : String → Trace Nat}
    {below : List Goal → Record → Trace Nat}
    {stepsBelow : List Goal → Record → List Step}
    {record : Record}
    (hBelow :
      ∀ deeper,
        below deeper record =
          .concat ((stepsBelow deeper record).map
            (Step.trace entering))) :
    w.visit goals below record =
      .concat ((w.stepsAt goals stepsBelow record).map
        (Step.trace entering)) := by
  have hDown :
      (if (w.descend goals record).1.isEmpty then
          (.empty : Trace Nat)
        else below (w.descend goals record).1 record) =
      .concat
        ((if (w.descend goals record).1.isEmpty then []
          else
            stepsBelow (w.descend goals record).1 record).map
              (Step.trace entering)) := by
    split
    · rfl
    · exact hBelow _
  have hFound (memo : Memo) :
      w.examine goals record memo =
        ⟨(w.examine goals record memo).events, none⟩ := by
    rw [← failure_examine memo]
  unfold visit stepsAt
  dsimp only
  rw [hDown, hFound]
  split <;>
    simp only [List.map_append, Trace.concat_append,
      Step.concat_does]

/- So it is with all the entries of a directory. -/
theorem concat_visits
    {entering : String → Trace Nat}
    {below : List Goal → Record → Trace Nat}
    {stepsBelow : List Goal → Record → List Step}
    (hBelow :
      ∀ record deeper,
        below deeper record =
          .concat ((stepsBelow deeper record).map
            (Step.trace entering)))
    (records : List Record) :
    .concat (records.map (w.visit goals below)) =
      Trace.concat
        ((records.flatMap (w.stepsAt goals stepsBelow)).map
          (Step.trace entering)) := by
  rw [List.map_flatMap, Trace.concat_flatMap]
  congr 1
  apply List.map_congr_left
  intro record _
  exact visit_eq_concat (hBelow record)

theorem entries_eq_error_iff
    {directory above : String}
    {fault : Fault} :
    w.entries d directory above = .error fault ↔
      d.list directory = .error fault := by
  unfold entries Record.ofDirectory
  cases d.list directory with
  | error other => simp [Except.map]
  | ok names => simp [Except.map]

/-
  A walk is made up of its steps; whether it passes over what
  cannot be listed decides only what becomes of entering. The
  induction is on the levels.
-/
theorem traverse_eq_concat
    (fuel : Nat)
    (directory : String)
    (goals : List Goal)
    (subdirs : List String) :
    w.traverse d fuel directory goals subdirs =
      .concat
        ((w.stepsFrom d fuel directory goals subdirs).map
          (Step.trace (w.entering d))) := by
  induction fuel generalizing directory goals subdirs with
  | zero => rfl
  | succ fuel ih =>
      rw [traverse, stepsFrom]
      split
      · rfl
      · rw [List.map_cons, Trace.concat_cons, Step.trace,
          ← concat_visits fun record deeper => ih _ deeper _]
        unfold listing entering
        cases hEntries :
            w.entries d directory (Path.joined subdirs) with
        | error fault =>
            rw [entries_eq_error_iff.mp hEntries]
            exact (Trace.append_empty _).symm
        | ok records =>
            rcases entries_eq_ok_iff.mp ⟨records, hEntries⟩ with
              ⟨names, hList⟩
            rw [hList]
            rfl

/- With given listings nothing becomes of entering. -/
theorem traverseOver_eq_concat
    (fuel : Nat)
    (directory : String)
    (goals : List Goal)
    (subdirs : List String) :
    w.traverseOver (w.listing d) fuel directory goals subdirs =
      .concat
        ((w.stepsFrom d fuel directory goals subdirs).map
          (Step.trace fun _ => .empty)) := by
  induction fuel generalizing directory goals subdirs with
  | zero => rfl
  | succ fuel ih =>
      rw [traverseOver, stepsFrom]
      split
      · rfl
      · rw [List.map_cons, Trace.concat_cons, Step.trace,
          ← concat_visits fun record deeper => ih _ deeper _]
        rfl

end Walker

end Search

end SymbolAtlas

------------------------------------------------------------
-- Cut Short
------------------------------------------------------------

namespace SymbolAtlas

namespace Search

namespace Walker

variable {w : Walker} {d : Disk}

theorem entering_of_not_shuts
    {directory : String}
    (hOpen : ¬ d.Shuts directory) :
    w.entering d directory = .empty := by
  unfold entering
  cases hList : d.list directory with
  | error fault => exact absurd ⟨fault, hList⟩ hOpen
  | ok names => rfl

theorem entering_of_ignoreUnreadable
    (hIgnore : w.ignoreUnreadable = true)
    (directory : String) :
    w.entering d directory = .empty := by
  unfold entering unreadable
  split
  · rw [if_pos hIgnore]
  · rfl

/-
  Directories that cannot be listed only truncate a walk. Passing
  over them it does what it would do if they were empty. Otherwise
  it does so up to the first one that it enters, and fails there.
  A consumer that stops after some records gets the first ones,
  and meets the failure only by asking for more.
-/
theorem unlistable_directories_truncate
    (w : Walker)
    (d : Disk)
    (base : String)
    (goals : List Goal) :
    w.walkOver d (w.listing d) base goals =
        ⟨(w.steps d base goals).filterMap Step.event?, none⟩ ∧
      (w.ignoreUnreadable = true →
        w.walk d base goals =
          w.walkOver d (w.listing d) base goals) ∧
      (w.ignoreUnreadable = false →
        ((∀ directory,
          .enters directory ∈ w.steps d base goals →
            ¬ d.Shuts directory) →
          w.walk d base goals =
            w.walkOver d (w.listing d) base goals) ∧
        ∀ before directory after fault,
          w.steps d base goals =
              before ++ .enters directory :: after →
            (∀ other, .enters other ∈ before →
              ¬ d.Shuts other) →
            d.list directory = .error fault →
              w.walk d base goals =
                ⟨before.filterMap Step.event?,
                  some (.unlistable directory
                    ⟨fault, directory, none⟩)⟩) ∧
      ∀ n,
        ((w.walk d base goals).take n).records =
            (w.walk d base goals).records.take n ∧
          ((w.walk d base goals).take n).failure =
            if n ≤ (w.walk d base goals).records.length then none
            else (w.walk d base goals).failure := by
  have hWalk :
      w.walk d base goals =
        .concat ((w.steps d base goals).map
          (Step.trace (w.entering d))) :=
    traverse_eq_concat _ _ _ _
  have hOver :
      w.walkOver d (w.listing d) base goals =
        ⟨(w.steps d base goals).filterMap Step.event?, none⟩ := by
    rw [← Step.concat_eq_of_forall_empty fun _ _ => rfl]
    exact traverseOver_eq_concat _ _ _ _
  refine ⟨hOver, fun hIgnore => ?_, fun hStrict => ⟨?_, ?_⟩,
    fun n => ⟨Trace.records_take n _, Trace.failure_take n _⟩⟩
  · rw [hWalk, hOver]
    exact Step.concat_eq_of_forall_empty fun directory _ =>
      entering_of_ignoreUnreadable hIgnore directory
  · intro hOpen
    rw [hWalk, hOver]
    exact Step.concat_eq_of_forall_empty fun directory hMem =>
      entering_of_not_shuts (hOpen directory hMem)
  · intro before directory after fault hSteps hOpen hList
    have hFail :
        w.entering d directory =
          .fail (.unlistable directory
            ⟨fault, directory, none⟩) := by
      unfold entering unreadable
      rw [hList, hStrict]
      rfl
    rw [hWalk, hSteps, List.map_append, Trace.concat_append,
      Step.concat_eq_of_forall_empty fun directory hMem =>
        entering_of_not_shuts (hOpen directory hMem),
      List.map_cons, Trace.concat_cons, Step.trace, hFail,
      Trace.fail_append]
    change
      Trace.mk (before.filterMap Step.event? ++ []) _ = _
    rw [List.append_nil]
    rfl

/- A library with a directory that may not be listed. -/
def shutLibrary : Disk where
  nodes :=
    [(["w"], .newDirectory),
      (["w", "lib"], .newDirectory),
      (["w", "lib", "a.php"], .file .empty 1000),
      (["w", "lib", "sub"], .newDirectory),
      (["w", "lib", "sub", "f.php"], .file .empty 1000),
      (["w", "lib", "z.php"], .file .empty 1000)]
  cwd := ["w"]
  denied := ["/w/lib/sub"]

theorem listing_shutLibrary
    (w : Walker)
    (hOrder : w.order = none) :
    w.listing shutLibrary "lib" "" =
      [⟨"lib/z.php", "z.php", .file, 1000⟩,
        ⟨"lib/sub", "sub", .dir, Node.directoryTime⟩,
        ⟨"lib/a.php", "a.php", .file, 1000⟩] := by
  have hNames :
      (["a.php", "sub", "z.php"].mergeSort
        fun a b => decide (b ≤ a)) = ["z.php", "sub", "a.php"] := by
    simp [List.mergeSort, List.MergeSort.Internal.splitInTwo]
  have hList :
      shutLibrary.list "lib" = .ok ["z.php", "sub", "a.php"] :=
    congrArg Except.ok hNames
  unfold listing entries Record.ofDirectory
  rw [hList, hOrder]
  rfl

/-
  The library is walked for all files. What comes before the shut
  directory is found in any case, what comes behind it only by
  passing over.
-/
theorem shut_library_truncates :
    ({ ignoreUnreadable := false } : Walker).walk shutLibrary "lib"
        everyGoal =
      ⟨[.found ⟨"lib/z.php", "z.php", .file, 1000⟩,
          .found ⟨"lib/sub", "sub", .dir, Node.directoryTime⟩],
        some (.unlistable "lib/sub"
          ⟨.notPermitted, "lib/sub", none⟩)⟩ ∧
      (({} : Walker).walk shutLibrary "lib" everyGoal).records =
        [⟨"lib/z.php", "z.php", .file, 1000⟩,
          ⟨"lib/sub", "sub", .dir, Node.directoryTime⟩,
          ⟨"lib/a.php", "a.php", .file, 1000⟩] := by
  have hSteps (ignore : Bool) :
      ({ ignoreUnreadable := ignore } : Walker).steps shutLibrary
          "lib" everyGoal =
        [.enters "lib",
          .does (.found ⟨"lib/z.php", "z.php", .file, 1000⟩),
          .does (.found
            ⟨"lib/sub", "sub", .dir, Node.directoryTime⟩),
          .enters "lib/sub",
          .does (.found ⟨"lib/a.php", "a.php", .file, 1000⟩)] := by
    change
      _ :: (Walker.listing _ shutLibrary "lib" "").flatMap _ = _
    rw [listing_shutLibrary _ rfl]
    rfl
  have hOpen :
      ∀ other,
        Step.enters other ∈
          [.enters "lib",
            .does (.found ⟨"lib/z.php", "z.php", .file, 1000⟩),
            .does (.found
              ⟨"lib/sub", "sub", .dir, Node.directoryTime⟩)] →
          ¬ shutLibrary.Shuts other := by
    intro other hMem
    obtain rfl : other = "lib" := by simpa using hMem
    rintro ⟨fault, hList⟩
    cases hList
  constructor
  · exact ((unlistable_directories_truncate
      { ignoreUnreadable := false } shutLibrary "lib"
      everyGoal).2.2.1 rfl).2 _ _ _ _ (hSteps false) hOpen rfl
  · have hAll :=
      unlistable_directories_truncate {} shutLibrary "lib" everyGoal
    rw [hAll.2.1 rfl, hAll.1, hSteps true]
    rfl

end Walker

end Search

end SymbolAtlas
