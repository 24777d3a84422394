import SymbolAtlas.Proofs.Search.Exactness

/-
  Directories before or behind what is in them.

  A walk that finds children first finds the same records as one
  that finds their directories first. A directory moves behind
  all that is found below it, and nothing else changes places.
  The relation between the two lists follows the tree: what is
  found at one entry stays together, and the entries of one
  directory keep their order.

  Key definitions:
    * `Record.IsBelow`, `Search.Before`
    * `Search.Turned`
    * `Search.Walker.directoriesFirst`,
      `Search.Walker.childrenFirst`

  Key theorems:
    * `Search.Turned.before_of_isBelow`
    * `Search.Turned.before_iff_of_apart`
    * `Search.Walker.turned_traverse`
    * `Search.Walker.childFirst_moves_directories`
-/

------------------------------------------------------------
-- Below and Before
------------------------------------------------------------

namespace SymbolAtlas

namespace Record

/- The first record lies below the second. -/
def IsBelow (r s : Record) : Prop :=
  ∃ rest, rest ≠ [] ∧ r.names = s.names ++ rest

/- Neither record lies below the other. -/
def IsApart (r s : Record) : Prop :=
  ¬ r.IsBelow s ∧ ¬ s.IsBelow r

variable {r s : Record}

theorem IsBelow.length_lt
    (hBelow : r.IsBelow s) :
    s.names.length < r.names.length := by
  rcases hBelow with ⟨rest, hSome, hNames⟩
  have hRest := List.length_pos_of_ne_nil hSome
  rw [hNames, List.length_append]
  omega

theorem not_isBelow_self
    (r : Record) :
    ¬ r.IsBelow r :=
  fun hBelow => lt_irrefl _ hBelow.length_lt

theorem IsBelow.asymm
    (hBelow : r.IsBelow s) :
    ¬ s.IsBelow r :=
  fun hAbove => lt_asymm hBelow.length_lt hAbove.length_lt

/- Records whose names part are apart. -/
theorem Parts.isApart
    {trail : List String}
    (hParts : Parts (· ≠ ·) trail r s) :
    r.IsApart s := by
  rcases hParts with ⟨step, turn, rest, more, hR, hS, hNe⟩
  constructor
  · rintro ⟨tail, -, hBelow⟩
    rw [hR, hS, List.append_assoc, List.append_cancel_left_eq]
      at hBelow
    exact hNe (List.head_eq_of_cons_eq hBelow)
  · rintro ⟨tail, -, hBelow⟩
    rw [hR, hS, List.append_assoc, List.append_cancel_left_eq]
      at hBelow
    exact hNe (List.head_eq_of_cons_eq hBelow).symm

end Record

namespace Search

variable {r s : Record} {first rest : List Record}

/- The first record stands before the second in the list. -/
def Before (records : List Record) (r s : Record) : Prop :=
  List.Sublist [r, s] records

/- Before in two lists: in one of them, or one after the other. -/
theorem before_append_iff :
    Before (first ++ rest) r s ↔
      Before first r s ∨ (r ∈ first ∧ s ∈ rest) ∨
        Before rest r s := by
  unfold Before
  constructor
  · intro hBefore
    rcases List.sublist_append_iff.mp hBefore with
      ⟨front, back, hSplit, hFront, hBack⟩
    cases front with
    | nil =>
        rw [List.nil_append] at hSplit
        rw [← hSplit] at hBack
        exact Or.inr (Or.inr hBack)
    | cons one front =>
        rw [List.cons_append, List.cons.injEq] at hSplit
        obtain ⟨rfl, hSplit⟩ := hSplit
        cases front with
        | nil =>
            rw [List.nil_append] at hSplit
            rw [← hSplit, List.singleton_sublist] at hBack
            rw [List.singleton_sublist] at hFront
            exact Or.inr (Or.inl ⟨hFront, hBack⟩)
        | cons two front =>
            rw [List.cons_append, List.cons.injEq] at hSplit
            obtain ⟨rfl, hSplit⟩ := hSplit
            obtain ⟨rfl, -⟩ := List.nil_eq_append_iff.mp hSplit
            exact Or.inl hFront
  · rintro (hFirst | ⟨hR, hS⟩ | hRest)
    · exact hFirst.trans (List.sublist_append_left _ _)
    · exact (List.singleton_sublist.mpr hR).append
        (List.singleton_sublist.mpr hS)
    · exact hRest.trans (List.sublist_append_right _ _)

theorem not_before_singleton
    (one r s : Record) :
    ¬ Before [one] r s :=
  fun hBefore => absurd hBefore.length_le (by simp)

end Search

end SymbolAtlas

------------------------------------------------------------
-- Turned Lists
------------------------------------------------------------

namespace SymbolAtlas

namespace Search

/-
  The second list has the records of the first, with every
  directory moved behind what is below it.
-/
inductive Turned : List Record → List Record → Prop where
  | nil : Turned [] []
  | append
      {first rest turned more : List Record}
      (hFirst : Turned first turned)
      (hRest : Turned rest more)
      (hApart : ∀ r ∈ first, ∀ s ∈ rest, r.IsApart s) :
      Turned (first ++ rest) (turned ++ more)
  | directory
      {top : Record}
      {below turned : List Record}
      (hTurned : Turned below turned)
      (hBelow : ∀ r ∈ below, r.IsBelow top) :
      Turned ([top] ++ below) (turned ++ [top])

namespace Turned

variable {records turned : List Record} {r s : Record}

theorem singleton
    (top : Record) :
    Turned [top] [top] :=
  directory nil (by simp)

theorem perm
    (hTurned : Turned records turned) :
    records.Perm turned := by
  induction hTurned with
  | nil => exact List.Perm.nil
  | append _ _ _ ihFirst ihRest => exact ihFirst.append ihRest
  | directory _ _ ih =>
      exact List.perm_append_comm.trans (ih.append_right _)

/- A directory moves from before to behind what is below it. -/
theorem before_of_isBelow
    (hTurned : Turned records turned)
    (hR : r ∈ records)
    (hS : s ∈ records)
    (hBelow : s.IsBelow r) :
    Before records r s ∧ Before turned s r := by
  induction hTurned with
  | nil => cases hR
  | append hFirst hRest hApart ihFirst ihRest =>
      simp only [before_append_iff]
      rcases List.mem_append.mp hR with hR | hR <;>
        rcases List.mem_append.mp hS with hS | hS
      · exact (ihFirst hR hS).imp Or.inl Or.inl
      · exact absurd hBelow (hApart r hR s hS).2
      · exact absurd hBelow (hApart s hS r hR).1
      · exact (ihRest hR hS).imp (Or.inr ∘ Or.inr)
          (Or.inr ∘ Or.inr)
  | directory hTurned hUnder ih =>
      simp only [before_append_iff, List.mem_singleton]
      rcases List.mem_append.mp hR with hR | hR <;>
        rcases List.mem_append.mp hS with hS | hS
      · rw [List.mem_singleton] at hR hS
        rw [hR, hS] at hBelow
        exact absurd hBelow (Record.not_isBelow_self _)
      · rw [List.mem_singleton] at hR
        have hMoved := hTurned.perm.mem_iff.mp hS
        exact ⟨Or.inr (Or.inl ⟨hR, hS⟩),
          Or.inr (Or.inl ⟨hMoved, hR⟩)⟩
      · rw [List.mem_singleton] at hS
        rw [hS] at hBelow
        exact absurd hBelow (hUnder r hR).asymm
      · exact (ih hR hS).imp (Or.inr ∘ Or.inr) Or.inl

/- Records that are apart keep their order. -/
theorem before_iff_of_isApart
    (hTurned : Turned records turned)
    (hApart : r.IsApart s) :
    Before records r s ↔ Before turned r s := by
  induction hTurned with
  | nil => rfl
  | append hFirst hRest _ ihFirst ihRest =>
      rw [before_append_iff, before_append_iff, ihFirst, ihRest,
        hFirst.perm.mem_iff, hRest.perm.mem_iff]
  | @directory top below turned hTurned hUnder ih =>
      -- What is below the directory is not apart from it.
      have hFront : ¬ (r ∈ [top] ∧ s ∈ below) := by
        rintro ⟨hR, hS⟩
        rw [List.mem_singleton] at hR
        rw [hR] at hApart
        exact hApart.2 (hUnder s hS)
      have hBack : ¬ (r ∈ turned ∧ s ∈ [top]) := by
        rintro ⟨hR, hS⟩
        rw [List.mem_singleton] at hS
        rw [hS] at hApart
        exact hApart.1 (hUnder r (hTurned.perm.mem_iff.mpr hR))
      have hAlone := not_before_singleton top r s
      rw [before_append_iff, before_append_iff, ih]
      simp only [hFront, hBack, hAlone, false_or, or_false]

/- Entries that are apart can be turned one by one. -/
theorem flatMap
    {entries : List Record}
    {f g : Record → List Record}
    (hEach : ∀ entry ∈ entries, Turned (f entry) (g entry))
    (hApart :
      entries.Pairwise fun one other =>
        ∀ r ∈ f one, ∀ s ∈ f other, r.IsApart s) :
    Turned (entries.flatMap f) (entries.flatMap g) := by
  induction entries with
  | nil => exact nil
  | cons one rest ih =>
      rw [List.forall_mem_cons] at hEach
      rw [List.pairwise_cons] at hApart
      rw [List.flatMap_cons, List.flatMap_cons]
      refine append hEach.1 (ih hEach.2 hApart.2) ?_
      intro r hR s hS
      rcases List.mem_flatMap.mp hS with ⟨other, hOther, hS⟩
      exact hApart.1 other hOther r hR s hS

end Turned

end Search

end SymbolAtlas

------------------------------------------------------------
-- Walks Both Ways
------------------------------------------------------------

namespace SymbolAtlas

namespace Search

namespace Walker

/- The walker, finding directories before what is in them. -/
def directoriesFirst (w : Walker) : Walker :=
  { w with childFirst := false }

/- The walker, finding directories behind what is in them. -/
def childrenFirst (w : Walker) : Walker :=
  { w with childFirst := true }

variable {w : Walker} {d : Disk} {base : String}
  {goals : List Goal}

/- At one entry the two differ by where the entry stands. -/
theorem turned_visited
    {entry : Record}
    {below turned : List Goal → List Record}
    (hTurned :
      Turned (below (w.deeper goals entry))
        (turned (w.deeper goals entry)))
    (hBelow :
      ∀ r ∈ below (w.deeper goals entry), r.IsBelow entry) :
    Turned (w.directoriesFirst.visited goals below entry)
      (w.childrenFirst.visited goals turned entry) := by
  have hFirst :
      w.directoriesFirst.visited goals below entry =
        (if w.finds goals entry then [entry] else []) ++
          (if (w.deeper goals entry).isEmpty then []
            else below (w.deeper goals entry)) :=
    rfl
  have hSecond :
      w.childrenFirst.visited goals turned entry =
        (if (w.deeper goals entry).isEmpty then []
          else turned (w.deeper goals entry)) ++
          (if w.finds goals entry then [entry] else []) :=
    rfl
  rw [hFirst, hSecond]
  split <;> split
  · exact Turned.singleton entry
  · exact Turned.directory hTurned hBelow
  · exact Turned.nil
  · rw [List.nil_append, List.append_nil]
    exact hTurned

/-
  Going down the tree the two ways finds lists of which one is
  turned into the other. The induction is on the levels left;
  what two entries of a directory lead to is apart, since the
  names of the entries differ.
-/
theorem turned_traverse
    (hSound : d.IsSound)
    (hIgnore : w.ignoreUnreadable = true)
    {fuel : Nat}
    {trail : List String}
    (hTrail : ∀ step ∈ trail, Disk.IsName step) :
    Turned
      (w.directoriesFirst.traverse d fuel
        (Record.pathAlong base trail) goals trail).records
      (w.childrenFirst.traverse d fuel
        (Record.pathAlong base trail) goals trail).records := by
  induction fuel generalizing goals trail with
  | zero => exact Turned.nil
  | succ fuel ih =>
      have hFirst : w.directoriesFirst.ignoreUnreadable = true :=
        hIgnore
      have hSecond : w.childrenFirst.ignoreUnreadable = true :=
        hIgnore
      rw [records_traverse_succ hFirst,
        records_traverse_succ hSecond]
      change
        Turned (if w.isTooDeep trail then [] else _)
          (if w.isTooDeep trail then [] else _)
      split
      · exact Turned.nil
      · apply Turned.flatMap
        · intro entry hEntry
          rcases mem_listing_iff.mp hEntry with ⟨step, hListed⟩
          have hNames := hListed.isName hSound hTrail
          apply turned_visited
          · rw [traverse_below hSound hTrail hListed,
              traverse_below hSound hTrail hListed]
            exact ih hNames
          · intro record hRecord
            rw [traverse_below hSound hTrail hListed] at hRecord
            rcases names_of_mem_traverse hSound hFirst hNames
                hRecord with ⟨rest, hSome, hRecordNames⟩
            refine ⟨rest, hSome, ?_⟩
            rw [hRecordNames, hListed.names_eq hSound hTrail]
        · apply (pairwise_parts_visited hSound hFirst hTrail
            (pairwise_name_ne_listing hSound hTrail)).imp
          intro one other hParts r hR s hS
          exact (hParts r hR s hS).isApart

/-
  Finding children first only moves directories behind what is
  below them. The same records are found, none of them twice. A
  directory stands before all that is found below it, or behind
  all of it. Records that are apart do not change places.
-/
theorem childFirst_moves_directories
    (hSound : d.IsSound)
    (hIgnore : w.ignoreUnreadable = true)
    (base : String)
    (goals : List Goal) :
    let first := (w.directoriesFirst.walk d base goals).records
    let last := (w.childrenFirst.walk d base goals).records
    first.Perm last ∧
      (first.map Record.relative).Nodup ∧
      (∀ r ∈ first, ∀ s ∈ first, s.IsBelow r →
        Before first r s ∧ Before last s r) ∧
      ∀ r ∈ first, ∀ s ∈ first, r.IsApart s →
        (Before first r s ↔ Before last r s) := by
  have hFirst : w.directoriesFirst.ignoreUnreadable = true :=
    hIgnore
  have hTurned :
      Turned (w.directoriesFirst.walk d base goals).records
        (w.childrenFirst.walk d base goals).records :=
    turned_traverse hSound hIgnore (List.forall_mem_nil _)
  refine ⟨hTurned.perm,
    nodup_relative_traverse hSound hFirst (List.forall_mem_nil _),
    fun r hR s hS => hTurned.before_of_isBelow hR hS,
    fun r _ s _ => hTurned.before_iff_of_isApart⟩

/-
  The library has a file in a directory of its own. Finding
  children first, the directory comes behind the file.
-/
theorem library_turned :
    let sub : Record :=
      ⟨"lib/sub", "sub", .dir, Node.directoryTime⟩
    let file : Record :=
      ⟨"lib/sub/f.php", "sub/f.php", .file, 1000⟩
    (({} : Walker).directoriesFirst.walk Disk.library "lib"
        everyGoal).records = [sub, file] ∧
      Before
        (({} : Walker).childrenFirst.walk Disk.library "lib"
          everyGoal).records file sub := by
  have hFound :
      (({} : Walker).directoriesFirst.walk Disk.library "lib"
        everyGoal).records =
        [⟨"lib/sub", "sub", .dir, Node.directoryTime⟩,
          ⟨"lib/sub/f.php", "sub/f.php", .file, 1000⟩] := by
    decide +kernel
  have hMoved :=
    (childFirst_moves_directories (w := {}) Disk.isSound_library
      rfl "lib" everyGoal).2.2.1
  rw [hFound] at hMoved
  refine ⟨hFound, (hMoved _ ?_ _ ?_ ?_).2⟩
  · exact List.mem_cons_self
  · exact List.mem_cons_of_mem _ List.mem_cons_self
  · exact ⟨["f.php"], by decide, by decide⟩

end Walker

end Search

end SymbolAtlas
