import SymbolAtlas.Proofs.Path.Dots
import SymbolAtlas.Proofs.Search.Walks

/-
  Trails: the names that lead a walk to an entry.

  A walk comes to an entry through the directories above it.
  The names on the way are the relative path of its record, so
  a record is found once at most, and it is found exactly if
  every directory on the way is listed and entered.

  Key definitions:
    * `Search.AllSteps`
    * `Search.Listed`
    * `Search.Walker.Comes`

  Key theorems:
    * `Search.Walker.mem_records_traverse_iff`
    * `Search.Walker.nodup_relative_traverse`
-/

------------------------------------------------------------
-- Steps
------------------------------------------------------------

namespace SymbolAtlas

namespace Search

/- Each step of a trail is allowed after the steps before it. -/
def AllSteps
    (P : List String → String → Prop)
    (trail : List String) : Prop :=
  ∀ steps step, steps ++ [step] <+: trail → P steps step

variable {P Q : List String → String → Prop}

theorem allSteps_nil : AllSteps P [] := by
  intro steps step hPrefix
  have hLength := hPrefix.length_le
  simp at hLength

theorem allSteps_cons_iff
    {first : String}
    {rest : List String} :
    AllSteps P (first :: rest) ↔
      P [] first ∧
        AllSteps (fun steps => P (first :: steps)) rest := by
  constructor
  · intro hAll
    refine ⟨hAll [] first (by simp), ?_⟩
    intro steps step hPrefix
    apply hAll (first :: steps) step
    rw [List.cons_append, List.cons_prefix_cons]
    exact ⟨rfl, hPrefix⟩
  · rintro ⟨hFirst, hRest⟩ steps step hPrefix
    cases steps with
    | nil =>
        rw [List.nil_append, List.cons_prefix_cons] at hPrefix
        rw [hPrefix.1]
        exact hFirst
    | cons other steps =>
        rw [List.cons_append, List.cons_prefix_cons] at hPrefix
        rw [hPrefix.1]
        exact hRest steps step hPrefix.2

theorem allSteps_concat_iff
    {trail : List String}
    {last : String} :
    AllSteps P (trail ++ [last]) ↔
      AllSteps P trail ∧ P trail last := by
  constructor
  · intro hAll
    refine ⟨fun steps step hPrefix => ?_, ?_⟩
    · exact hAll steps step
        (hPrefix.trans (List.prefix_append trail [last]))
    · exact hAll trail last List.prefix_rfl
  · rintro ⟨hTrail, hLast⟩ steps step hPrefix
    rcases List.prefix_concat_iff.mp hPrefix with hSame | hShorter
    · rw [List.append_singleton_inj] at hSame
      rw [hSame.1, hSame.2]
      exact hLast
    · exact hTrail steps step hShorter

theorem AllSteps.mono
    {trail : List String}
    (hAll : AllSteps P trail)
    (hStep : ∀ steps step, P steps step → Q steps step) :
    AllSteps Q trail :=
  fun steps step hPrefix =>
    hStep steps step (hAll steps step hPrefix)

theorem AllSteps.of_prefix
    {trail front : List String}
    (hAll : AllSteps P trail)
    (hFront : front <+: trail) :
    AllSteps P front :=
  fun steps step hPrefix =>
    hAll steps step (hPrefix.trans hFront)

/- What holds of every step holds of every name. -/
theorem AllSteps.forall_mem
    {trail : List String}
    {R : String → Prop}
    (hAll : AllSteps P trail)
    (hStep : ∀ steps step, P steps step → R step) :
    ∀ name ∈ trail, R name := by
  intro name hName
  rcases List.append_of_mem hName with ⟨front, back, rfl⟩
  apply hStep front
  apply hAll front name
  exact ⟨back, by simp⟩

end Search

end SymbolAtlas

------------------------------------------------------------
-- Records Along a Trail
------------------------------------------------------------

namespace SymbolAtlas

namespace Path

theorem relativeOf_joined
    {trail : List String}
    (hNames : ∀ name ∈ trail, Disk.IsName name)
    (name : String) :
    Record.relativeOf (joined trail) name =
      joined (trail ++ [name]) := by
  unfold Record.relativeOf
  by_cases hSome : trail = []
  · subst hSome
    simp [joined]
  · rw [if_neg (by simpa using joined_ne_empty hNames hSome),
      joined_concat hSome]

end Path

namespace Record

/- The names in the relative path of a record. -/
def names (r : Record) : List String :=
  Path.names r.relative

/- The names of two records part after a trail, as told. -/
def Parts
    (R : String → String → Prop)
    (trail : List String)
    (r s : Record) : Prop :=
  ∃ step turn rest more,
    r.names = trail ++ step :: rest ∧
      s.names = trail ++ turn :: more ∧ R step turn

theorem Parts.names_ne
    {trail : List String}
    {r s : Record}
    (hParts : Parts (· ≠ ·) trail r s) :
    r.names ≠ s.names := by
  rcases hParts with ⟨step, turn, rest, more, hR, hS, hNe⟩
  rw [hR, hS]
  intro hSame
  rw [List.append_cancel_left_eq, List.cons.injEq] at hSame
  exact hNe hSame.1

/- The record of an entry, unless it cannot be examined. -/
def ofStat?
    (path relative : String) :
    Except Fault Disk.Stat → Option Record
| .ok s =>
    some ⟨path, relative,
      if s.isDirectory then .dir else .file, s.mtime⟩
| .error .noEntry => some ⟨path, relative, .other, 0⟩
| .error _ => none

theorem texts_of_ofStat?
    {path relative : String}
    {stat : Except Fault Disk.Stat}
    {record : Record}
    (hRecord : ofStat? path relative stat = some record) :
    record.path = path ∧ record.relative = relative := by
  unfold ofStat? at hRecord
  split at hRecord <;> cases hRecord <;> exact ⟨rfl, rfl⟩

theorem ofListed?_eq
    (d : Disk)
    (directory above name : String) :
    ofListed? d directory above name =
      ofStat? (pathOf directory name) (relativeOf above name)
        (d.stat (Path.child directory name)) := by
  unfold ofListed? ofStat?
  cases d.stat (Path.child directory name) with
  | ok s => rfl
  | error fault => cases fault <;> rfl

theorem texts_of_ofListed?
    {d : Disk}
    {directory above name : String}
    {record : Record}
    (hRecord : ofListed? d directory above name = some record) :
    record.path = pathOf directory name ∧
      record.relative = relativeOf above name := by
  rw [ofListed?_eq] at hRecord
  exact texts_of_ofStat? hRecord

/- The kind of a record tells what is there. -/
theorem stat_of_isDirectory
    {path relative : String}
    {stat : Except Fault Disk.Stat}
    {record : Record}
    (hRecord : ofStat? path relative stat = some record)
    (hDirectory : record.isDirectory = true) :
    ∃ mtime, stat = .ok ⟨true, mtime⟩ := by
  unfold ofStat? at hRecord
  split at hRecord <;> cases hRecord
  · next s =>
      obtain ⟨isDirectory, mtime⟩ := s
      cases isDirectory with
      | true => exact ⟨mtime, rfl⟩
      | false => cases hDirectory
  · cases hDirectory

theorem stat_of_kind_eq_file
    {path relative : String}
    {stat : Except Fault Disk.Stat}
    {record : Record}
    (hRecord : ofStat? path relative stat = some record)
    (hKind : record.kind = .file) :
    ∃ mtime, stat = .ok ⟨false, mtime⟩ := by
  unfold ofStat? at hRecord
  split at hRecord <;> cases hRecord
  · next s =>
      obtain ⟨isDirectory, mtime⟩ := s
      cases isDirectory with
      | true => cases hKind
      | false => exact ⟨mtime, rfl⟩
  · cases hKind

end Record

namespace Search

/- What a walk that has come along a trail lists there. -/
structure Listed
    (d : Disk)
    (base : String)
    (trail : List String)
    (name : String)
    (record : Record) : Prop where
  listed : name ∈ d.namesAt (Record.pathAlong base trail)
  taken :
    Record.ofListed? d (Record.pathAlong base trail)
      (Path.joined trail) name = some record

variable {d : Disk} {base : String} {trail : List String}
  {name : String} {record : Record}

theorem Listed.path_eq
    (hListed : Listed d base trail name record) :
    record.path = Record.pathAlong base (trail ++ [name]) := by
  rw [Record.pathAlong_concat]
  exact (Record.texts_of_ofListed? hListed.taken).1

theorem Listed.relative_eq
    (hListed : Listed d base trail name record)
    (hTrail : ∀ step ∈ trail, Disk.IsName step) :
    record.relative = Path.joined (trail ++ [name]) := by
  rw [← Path.relativeOf_joined hTrail]
  exact (Record.texts_of_ofListed? hListed.taken).2

theorem Listed.isName
    (hListed : Listed d base trail name record)
    (hSound : d.IsSound)
    (hTrail : ∀ step ∈ trail, Disk.IsName step) :
    ∀ step ∈ trail ++ [name], Disk.IsName step := by
  rw [List.forall_mem_append, List.forall_mem_singleton]
  exact ⟨hTrail, hSound.isName_of_mem_namesAt hListed.listed⟩

/- The names of the record are those on the way to it. -/
theorem Listed.names_eq
    (hListed : Listed d base trail name record)
    (hSound : d.IsSound)
    (hTrail : ∀ step ∈ trail, Disk.IsName step) :
    record.names = trail ++ [name] := by
  have hNames := hListed.isName hSound hTrail
  unfold Record.names
  rw [hListed.relative_eq hTrail]
  exact Path.names_joined (fun step hStep => (hNames step hStep).2)
    (by simp)

theorem Listed.name_eq
    (hListed : Listed d base trail name record)
    (hSound : d.IsSound)
    (hTrail : ∀ step ∈ trail, Disk.IsName step) :
    record.name = name := by
  unfold Record.name
  rw [hListed.relative_eq hTrail]
  exact Path.baseName_joined_concat trail
    (hSound.isName_of_mem_namesAt hListed.listed).2

namespace Walker

variable {w : Walker}

theorem listing_perm
    (w : Walker)
    (d : Disk)
    (directory above : String) :
    (w.listing d directory above).Perm
      ((d.namesAt directory).filterMap
        (Record.ofListed? d directory above)) := by
  unfold listing entries Record.ofDirectory Disk.namesAt
  cases d.list directory with
  | error fault => exact List.Perm.refl _
  | ok names =>
      cases w.order with
      | none => exact List.Perm.refl _
      | some le => exact List.mergeSort_perm _ _

theorem mem_listing_iff :
    record ∈ w.listing d (Record.pathAlong base trail)
        (Path.joined trail) ↔
      ∃ name, Listed d base trail name record := by
  rw [(listing_perm w d _ _).mem_iff, List.mem_filterMap]
  constructor
  · rintro ⟨name, hName, hRecord⟩
    exact ⟨name, hName, hRecord⟩
  · rintro ⟨name, hListed⟩
    exact ⟨name, hListed.listed, hListed.taken⟩

end Walker

end Search

end SymbolAtlas

------------------------------------------------------------
-- Coming to an Entry
------------------------------------------------------------

namespace SymbolAtlas

namespace Search

namespace Walker

variable {w : Walker} {goals : List Goal} {record : Record}

/- The depth is within the limit of the walk. -/
def Allows (w : Walker) (depth : Nat) : Prop :=
  ∀ limit, w.maxDepth = some limit → depth ≤ limit

/- The entry is a directory that passes the descent filters. -/
def Opens (w : Walker) (record : Record) : Prop :=
  record.isDirectory = true ∧ w.passes w.descent record = true

/- Some goal is met, a deep one below other directories. -/
def Wants
    (goals : List Goal)
    (front : List String)
    (record : Record) : Prop :=
  ∃ goal ∈ goals,
    (front ≠ [] → goal.deep = true) ∧
      record.kind = goal.kind ∧
      goal.mask.accepts record.relative = true

/-
  The walk comes to an entry and keeps it: every directory on
  the way is there and open, the entry is there, wanted, and
  passes the content filters. What is there is a parameter.
-/
structure Comes
    (w : Walker)
    (goals : List Goal)
    (entryAt : List String → String → Record → Prop)
    (front : List String)
    (name : String)
    (record : Record) : Prop where
  way :
    AllSteps
      (fun steps step =>
        ∃ entry, entryAt steps step entry ∧ w.Opens entry) front
  entry : entryAt front name record
  wanted : Wants goals front record
  kept : w.passes w.content record = true

theorem isTooDeep_iff
    {subdirs : List String} :
    w.isTooDeep subdirs = true ↔ ¬ w.Allows subdirs.length := by
  unfold isTooDeep Allows
  cases w.maxDepth <;> simp

theorem wants_nil_iff :
    Wants goals [] record ↔
      goals.any (·.isMetBy record) = true := by
  simp [Wants, Goal.isMetBy]

theorem opens_of_deeper
    (hSome : w.deeper goals record ≠ []) :
    w.Opens record := by
  unfold deeper at hSome
  split at hSome
  · next hBoth => simpa [Opens] using hBoth
  · exact absurd rfl hSome

/- Below an entry only the goals that are deep are left. -/
theorem wants_deeper_iff
    {entry : Record}
    (hOpens : w.Opens entry)
    {step : String}
    {front : List String} :
    Wants (w.deeper goals entry) front record ↔
      Wants goals (step :: front) record := by
  have hDeeper : w.deeper goals entry = goals.filter Goal.deep := by
    unfold deeper
    rw [hOpens.1, hOpens.2]
    rfl
  unfold Wants
  rw [hDeeper]
  constructor
  · rintro ⟨goal, hGoal, -, hMeets⟩
    rw [List.mem_filter] at hGoal
    exact ⟨goal, hGoal.1, fun _ => hGoal.2, hMeets⟩
  · rintro ⟨goal, hGoal, hDeep, hMeets⟩
    have hKept := hDeep (by simp)
    exact ⟨goal, List.mem_filter.mpr ⟨hGoal, hKept⟩,
      fun _ => hKept, hMeets⟩

variable {entryAt : List String → String → Record → Prop}
  {front : List String} {name : String}

theorem comes_nil_iff :
    w.Comes goals entryAt [] name record ↔
      entryAt [] name record ∧ w.finds goals record = true := by
  unfold finds
  rw [Bool.and_eq_true, ← wants_nil_iff]
  constructor
  · rintro ⟨-, hEntry, hWanted, hKept⟩
    exact ⟨hEntry, hWanted, hKept⟩
  · rintro ⟨hEntry, hWanted, hKept⟩
    exact ⟨allSteps_nil, hEntry, hWanted, hKept⟩

/- The first step leads to a walk for what is left there. -/
theorem comes_cons_iff
    {step : String} :
    w.Comes goals entryAt (step :: front) name record ↔
      ∃ entry,
        entryAt [] step entry ∧ w.deeper goals entry ≠ [] ∧
          w.Comes (w.deeper goals entry)
            (fun steps => entryAt (step :: steps)) front name
            record := by
  constructor
  · rintro ⟨hWay, hEntry, hWanted, hKept⟩
    rw [allSteps_cons_iff] at hWay
    rcases hWay with ⟨⟨entry, hFirst, hOpens⟩, hRest⟩
    have hDeep := (wants_deeper_iff hOpens).mpr hWanted
    refine ⟨entry, hFirst, ?_, hRest, hEntry, hDeep, hKept⟩
    rcases hDeep with ⟨goal, hGoal, -⟩
    exact List.ne_nil_of_mem hGoal
  · rintro ⟨entry, hFirst, hSome, hRest, hEntry, hDeep, hKept⟩
    have hOpens := opens_of_deeper hSome
    refine ⟨?_, hEntry, (wants_deeper_iff hOpens).mp hDeep, hKept⟩
    rw [allSteps_cons_iff]
    exact ⟨⟨entry, hFirst, hOpens⟩, hRest⟩

end Walker

end Search

end SymbolAtlas

------------------------------------------------------------
-- Findings of a Walk
------------------------------------------------------------

namespace SymbolAtlas

namespace Search

namespace Walker

variable {d : Disk} {w : Walker} {base : String}

/- What is listed below a trail that the walk has come along. -/
def ListedBelow
    (d : Disk)
    (base : String)
    (trail steps : List String) :
    String → Record → Prop :=
  Listed d base (trail ++ steps)

/- A walk goes on below an entry along a longer trail. -/
theorem traverse_below
    (hSound : d.IsSound)
    {trail : List String}
    (hTrail : ∀ step ∈ trail, Disk.IsName step)
    {step : String}
    {entry : Record}
    (hListed : Listed d base trail step entry)
    (fuel : Nat)
    (goals : List Goal) :
    w.traverse d fuel entry.path goals (trail ++ [entry.name]) =
      w.traverse d fuel (Record.pathAlong base (trail ++ [step]))
        goals (trail ++ [step]) := by
  rw [hListed.path_eq, hListed.name_eq hSound hTrail]

theorem listedBelow_nil
    (trail : List String) :
    ListedBelow d base trail [] = Listed d base trail := by
  unfold ListedBelow
  rw [List.append_nil]

theorem listedBelow_cons
    (trail : List String)
    (step : String) :
    (fun steps => ListedBelow d base trail (step :: steps)) =
      ListedBelow d base (trail ++ [step]) := by
  funext steps
  unfold ListedBelow
  rw [List.append_assoc, List.singleton_append]

/- One level: an entry is found, or something below it is. -/
theorem mem_records_traverse_succ_iff
    (hSound : d.IsSound)
    (hIgnore : w.ignoreUnreadable = true)
    {fuel : Nat}
    {goals : List Goal}
    {trail : List String}
    (hTrail : ∀ step ∈ trail, Disk.IsName step)
    {record : Record} :
    record ∈
        (w.traverse d (fuel + 1) (Record.pathAlong base trail)
          goals trail).records ↔
      w.Allows trail.length ∧
        ∃ step entry,
          Listed d base trail step entry ∧
          ((record = entry ∧ w.finds goals entry = true) ∨
            (w.deeper goals entry ≠ [] ∧
              record ∈
                (w.traverse d fuel
                  (Record.pathAlong base (trail ++ [step]))
                  (w.deeper goals entry)
                  (trail ++ [step])).records)) := by
  rw [records_traverse_succ hIgnore]
  by_cases hDeep : w.isTooDeep trail = true
  · rw [if_pos hDeep]
    rw [isTooDeep_iff] at hDeep
    simp [hDeep]
  · rw [if_neg hDeep, List.mem_flatMap]
    rw [isTooDeep_iff, not_not] at hDeep
    constructor
    · rintro ⟨entry, hEntry, hFound⟩
      rcases mem_listing_iff.mp hEntry with ⟨step, hListed⟩
      rw [mem_visited_iff, traverse_below hSound hTrail hListed]
        at hFound
      exact ⟨hDeep, step, entry, hListed, hFound⟩
    · rintro ⟨-, step, entry, hListed, hFound⟩
      refine ⟨entry, mem_listing_iff.mpr ⟨step, hListed⟩, ?_⟩
      rw [mem_visited_iff, traverse_below hSound hTrail hListed]
      exact hFound

/- A walk that may go deep may stop before. -/
theorem Allows.of_le
    {depth deeper : Nat}
    (hAllows : w.Allows deeper)
    (hDepth : depth ≤ deeper) :
    w.Allows depth :=
  fun limit hLimit => hDepth.trans (hAllows limit hLimit)

/-
  What a walk finds that has come along a trail. The induction
  is on the levels left and follows the first step below.
-/
theorem mem_records_traverse_iff
    (hSound : d.IsSound)
    (hIgnore : w.ignoreUnreadable = true)
    {fuel : Nat}
    {goals : List Goal}
    {trail : List String}
    (hTrail : ∀ step ∈ trail, Disk.IsName step)
    {record : Record} :
    record ∈
        (w.traverse d fuel (Record.pathAlong base trail) goals
          trail).records ↔
      ∃ front name,
        front.length < fuel ∧
        w.Allows (trail.length + front.length) ∧
        w.Comes goals (ListedBelow d base trail) front name
          record := by
  induction fuel generalizing goals trail with
  | zero =>
      constructor
      · intro hRecord
        cases hRecord
      · rintro ⟨front, name, hFuel, -⟩
        exact absurd hFuel (Nat.not_lt_zero _)
  | succ fuel ih =>
      rw [mem_records_traverse_succ_iff hSound hIgnore hTrail]
      constructor
      · rintro ⟨hDepth, step, entry, hListed,
          ⟨rfl, hFinds⟩ | ⟨hSome, hDown⟩⟩
        · refine ⟨[], step, by simp, hDepth, ?_⟩
          rw [comes_nil_iff, listedBelow_nil]
          exact ⟨hListed, hFinds⟩
        · rw [ih (hListed.isName hSound hTrail)] at hDown
          rcases hDown with ⟨front, name, hFuel, hAllows, hComes⟩
          refine ⟨step :: front, name, by simpa using hFuel,
            hAllows.of_le ?_, ?_⟩
          · rw [List.length_cons, List.length_append,
              List.length_singleton]
            omega
          · rw [comes_cons_iff, listedBelow_nil, listedBelow_cons]
            exact ⟨entry, hListed, hSome, hComes⟩
      · rintro ⟨front, name, hFuel, hAllows, hComes⟩
        refine ⟨hAllows.of_le (Nat.le_add_right _ _), ?_⟩
        cases front with
        | nil =>
            rw [comes_nil_iff, listedBelow_nil] at hComes
            exact ⟨name, record, hComes.1,
              Or.inl ⟨rfl, hComes.2⟩⟩
        | cons step front =>
            rw [comes_cons_iff, listedBelow_nil, listedBelow_cons]
              at hComes
            rcases hComes with ⟨entry, hListed, hSome, hRest⟩
            refine ⟨step, entry, hListed, Or.inr ⟨hSome, ?_⟩⟩
            rw [ih (hListed.isName hSound hTrail)]
            refine ⟨front, name, by simpa using hFuel,
              hAllows.of_le ?_, hRest⟩
            rw [List.length_cons, List.length_append,
              List.length_singleton]
            omega

/- Directories that the walk has come through have names. -/
theorem Comes.isName
    (hSound : d.IsSound)
    {goals : List Goal}
    {trail front : List String}
    {name : String}
    {record : Record}
    (hComes :
      w.Comes goals (ListedBelow d base trail) front name record) :
    ∀ step ∈ front, Disk.IsName step := by
  refine hComes.way.forall_mem ?_
  rintro steps step ⟨entry, hListed, -⟩
  exact hSound.isName_of_mem_namesAt hListed.listed

/- What a walk finds lies below the trail it has come along. -/
theorem names_of_mem_traverse
    (hSound : d.IsSound)
    (hIgnore : w.ignoreUnreadable = true)
    {fuel : Nat}
    {goals : List Goal}
    {trail : List String}
    (hTrail : ∀ step ∈ trail, Disk.IsName step)
    {record : Record}
    (hRecord :
      record ∈
        (w.traverse d fuel (Record.pathAlong base trail) goals
          trail).records) :
    ∃ rest, rest ≠ [] ∧ record.names = trail ++ rest := by
  rw [mem_records_traverse_iff hSound hIgnore hTrail] at hRecord
  rcases hRecord with ⟨front, name, -, -, hComes⟩
  refine ⟨front ++ [name], by simp, ?_⟩
  rw [← List.append_assoc]
  apply hComes.entry.names_eq hSound
  rw [List.forall_mem_append]
  exact ⟨hTrail, hComes.isName hSound⟩

end Walker

end Search

end SymbolAtlas

------------------------------------------------------------
-- No Record Twice
------------------------------------------------------------

namespace SymbolAtlas

namespace Search

namespace Walker

variable {d : Disk} {w : Walker} {base : String}

theorem nodup_relative_listing
    (hSound : d.IsSound)
    (directory above : String) :
    ((w.listing d directory above).map Record.relative).Nodup := by
  rw [((listing_perm w d directory above).map _).nodup_iff,
    List.map_filterMap]
  apply List.Nodup.filterMap _ (hSound.nodup_namesAt directory)
  intro first second relative hFirst hSecond
  rw [Option.mem_def, Option.map_eq_some_iff] at hFirst hSecond
  rcases hFirst with ⟨one, hOne, rfl⟩
  rcases hSecond with ⟨two, hTwo, hSame⟩
  rw [(Record.texts_of_ofListed? hOne).2,
    (Record.texts_of_ofListed? hTwo).2] at hSame
  unfold Record.relativeOf at hSame
  split at hSame
  · exact hSame.symm
  · exact (String.append_right_inj _).mp hSame.symm

/- The entries of one directory differ in their names. -/
theorem pairwise_name_ne_listing
    (hSound : d.IsSound)
    {trail : List String}
    (hTrail : ∀ step ∈ trail, Disk.IsName step) :
    (w.listing d (Record.pathAlong base trail)
      (Path.joined trail)).Pairwise
        fun first second => first.name ≠ second.name := by
  have hListing :=
    List.pairwise_map.mp (nodup_relative_listing (w := w) hSound
      (Record.pathAlong base trail) (Path.joined trail))
  apply hListing.imp_of_mem
  intro first second hFirst hSecond hNe hSame
  rcases mem_listing_iff.mp hFirst with ⟨step, hStep⟩
  rcases mem_listing_iff.mp hSecond with ⟨other, hOther⟩
  apply hNe
  rw [hStep.relative_eq hTrail, hOther.relative_eq hTrail,
    ← hStep.name_eq hSound hTrail, ← hOther.name_eq hSound hTrail,
    hSame]

/- An entry stands apart from what is found below it. -/
theorem nodup_visited
    {goals : List Goal}
    {below : List Goal → List Record}
    {entry : Record}
    (hBelow :
      ((below (w.deeper goals entry)).map Record.relative).Nodup)
    (hApart :
      ∀ record ∈ below (w.deeper goals entry),
        record.relative ≠ entry.relative) :
    ((w.visited goals below entry).map Record.relative).Nodup := by
  have hHere :
      ((if w.finds goals entry then [entry] else []).map
        Record.relative).Nodup := by
    split <;> simp
  have hDown :
      ((if (w.deeper goals entry).isEmpty then []
        else below (w.deeper goals entry)).map
          Record.relative).Nodup := by
    split
    · exact List.nodup_nil
    · exact hBelow
  have hDisjoint :
      List.Disjoint
        ((if w.finds goals entry then [entry] else []).map
          Record.relative)
        ((if (w.deeper goals entry).isEmpty then []
          else below (w.deeper goals entry)).map
            Record.relative) := by
    intro relative hFirst hSecond
    rcases List.mem_map.mp hFirst with ⟨one, hOne, rfl⟩
    rcases List.mem_map.mp hSecond with ⟨two, hTwo, hSame⟩
    have hSelf : one = entry := by
      split at hOne
      · exact List.mem_singleton.mp hOne
      · cases hOne
    subst hSelf
    split at hTwo
    · cases hTwo
    · exact hApart two hTwo hSame
  unfold visited
  dsimp only
  split
  · rw [List.map_append]
    exact hDown.append hHere (List.disjoint_symm hDisjoint)
  · rw [List.map_append]
    exact hHere.append hDown hDisjoint

/- What is found at an entry lies at it or below it. -/
theorem names_of_mem_visited
    (hSound : d.IsSound)
    (hIgnore : w.ignoreUnreadable = true)
    {fuel : Nat}
    {goals : List Goal}
    {trail : List String}
    (hTrail : ∀ step ∈ trail, Disk.IsName step)
    {step : String}
    {entry record : Record}
    (hListed : Listed d base trail step entry)
    (hRecord :
      record ∈
        w.visited goals
          (fun deeper =>
            (w.traverse d fuel entry.path deeper
              (trail ++ [entry.name])).records) entry) :
    ∃ rest, record.names = trail ++ step :: rest := by
  rcases mem_visited_iff.mp hRecord with ⟨rfl, -⟩ | ⟨-, hDown⟩
  · exact ⟨[], hListed.names_eq hSound hTrail⟩
  · rw [traverse_below hSound hTrail hListed] at hDown
    rcases names_of_mem_traverse hSound hIgnore
        (hListed.isName hSound hTrail) hDown with
      ⟨rest, -, hNames⟩
    exact ⟨rest, by rw [hNames]; simp⟩

/- What two entries lead to parts after the trail, as they do. -/
theorem pairwise_parts_visited
    {R : String → String → Prop}
    (hSound : d.IsSound)
    (hIgnore : w.ignoreUnreadable = true)
    {fuel : Nat}
    {goals : List Goal}
    {trail : List String}
    (hTrail : ∀ step ∈ trail, Disk.IsName step)
    (hListing :
      (w.listing d (Record.pathAlong base trail)
        (Path.joined trail)).Pairwise
          fun one other => R one.name other.name) :
    (w.listing d (Record.pathAlong base trail)
      (Path.joined trail)).Pairwise
        fun one other =>
          ∀ r ∈ w.visited goals
              (fun deeper =>
                (w.traverse d fuel one.path deeper
                  (trail ++ [one.name])).records) one,
            ∀ s ∈ w.visited goals
                (fun deeper =>
                  (w.traverse d fuel other.path deeper
                    (trail ++ [other.name])).records) other,
              r.Parts R trail s := by
  apply hListing.imp_of_mem
  intro one other hOne hOther hNames r hR s hS
  rcases mem_listing_iff.mp hOne with ⟨step, hStep⟩
  rcases mem_listing_iff.mp hOther with ⟨turn, hTurn⟩
  rcases names_of_mem_visited hSound hIgnore hTrail hStep hR with
    ⟨rest, hRest⟩
  rcases names_of_mem_visited hSound hIgnore hTrail hTurn hS with
    ⟨more, hMore⟩
  rw [hStep.name_eq hSound hTrail, hTurn.name_eq hSound hTrail]
    at hNames
  exact ⟨step, turn, rest, more, hRest, hMore, hNames⟩

/- No two records that a walk finds have one relative path. -/
theorem nodup_relative_traverse
    (hSound : d.IsSound)
    (hIgnore : w.ignoreUnreadable = true)
    {fuel : Nat}
    {goals : List Goal}
    {trail : List String}
    (hTrail : ∀ step ∈ trail, Disk.IsName step) :
    ((w.traverse d fuel (Record.pathAlong base trail) goals
      trail).records.map Record.relative).Nodup := by
  induction fuel generalizing goals trail with
  | zero => exact List.nodup_nil
  | succ fuel ih =>
      rw [records_traverse_succ hIgnore]
      split
      · exact List.nodup_nil
      · rw [List.map_flatMap, List.nodup_flatMap]
        refine ⟨fun entry hEntry => ?_, ?_⟩
        · rcases mem_listing_iff.mp hEntry with ⟨step, hListed⟩
          have hNames := hListed.isName hSound hTrail
          apply nodup_visited
          · rw [traverse_below hSound hTrail hListed]
            exact ih hNames
          · intro record hRecord hSame
            rw [traverse_below hSound hTrail hListed] at hRecord
            rcases names_of_mem_traverse hSound hIgnore hNames
                hRecord with ⟨rest, hRest, hRecordNames⟩
            have hEqual : record.names = entry.names := by
              unfold Record.names
              rw [hSame]
            rw [hRecordNames, hListed.names_eq hSound hTrail]
              at hEqual
            exact hRest (by simpa using hEqual)
        · -- Entries of one directory differ in the name that
          -- follows the trail.
          apply (pairwise_parts_visited hSound hIgnore hTrail
            (pairwise_name_ne_listing hSound hTrail)).imp
          intro first second hParts relative hOne hTwo
          rcases List.mem_map.mp hOne with ⟨one, hOneMem, rfl⟩
          rcases List.mem_map.mp hTwo with ⟨two, hTwoMem, hSame⟩
          apply (hParts one hOneMem two hTwoMem).names_ne
          unfold Record.names
          rw [hSame]

end Walker

end Search

end SymbolAtlas
