import SymbolAtlas.Proofs.Search.Exactness
import SymbolAtlas.Proofs.Search.Guards

/-
  Walks sorted by name.

  Sorting the entries of each directory by their names sorts the
  whole walk: the names that lead to the records increase, and a
  directory comes before what is in it. The names of one
  directory differ, so sorting them leaves nothing to the order
  in which the disk lists them, and neither does the order of
  the sources that settings ask for.

  Key theorems:
    * `Search.Walker.sorted_traverse`
    * `Search.Walker.walk_relisted`
    * `Sources.ofSettings_relisted`
    * `Search.sorted_by_name`
-/

------------------------------------------------------------
-- Increasing Names
------------------------------------------------------------

namespace SymbolAtlas

namespace Record

/- Where names part, they are ordered by the first that differs. -/
theorem Parts.names_lt
    {trail : List String}
    {r s : Record}
    (hParts : Parts (· < ·) trail r s) :
    r.names < s.names := by
  rcases hParts with ⟨step, turn, rest, more, hR, hS, hLess⟩
  rw [hR, hS]
  apply List.append_left_lt
  rw [List.cons_lt_cons_iff]
  exact Or.inl hLess

/- What lies below a record comes after it. -/
theorem names_lt_of_append
    {r s : Record}
    {rest : List String}
    (hSome : rest ≠ [])
    (hNames : s.names = r.names ++ rest) :
    r.names < s.names := by
  rcases List.exists_cons_of_ne_nil hSome with ⟨step, more, rfl⟩
  rw [hNames]
  calc
    r.names = r.names ++ [] := (List.append_nil _).symm
    _ < r.names ++ step :: more :=
        List.append_left_lt (List.nil_lt_cons _ _)

end Record

namespace Search

namespace Walker

variable {w : Walker} {d : Disk} {base : String}

/- The walk sorts the entries of each directory by name. -/
def SortsByName (w : Walker) : Prop :=
  w.order = some Record.SortKey.name.le

theorem SortsByName.pairwise_listing
    (hSorts : w.SortsByName)
    (directory above : String) :
    (w.listing d directory above).Pairwise
      fun one other => one.name ≤ other.name := by
  unfold listing entries
  rw [hSorts]
  cases Record.ofDirectory d directory above with
  | error fault => exact List.Pairwise.nil
  | ok records => exact pairwise_mergeSort_by Record.name records

/- The names in one directory are told apart by sorting. -/
theorem SortsByName.pairwise_name_lt
    (hSorts : w.SortsByName)
    (hSound : d.IsSound)
    {trail : List String}
    (hTrail : ∀ step ∈ trail, Disk.IsName step) :
    (w.listing d (Record.pathAlong base trail)
      (Path.joined trail)).Pairwise
        fun one other => one.name < other.name := by
  apply ((hSorts.pairwise_listing _ _).and
    (pairwise_name_ne_listing hSound hTrail)).imp
  rintro one other ⟨hLe, hNe⟩
  rw [← String.not_le]
  exact fun hGe => hNe (String.le_antisymm hLe hGe)

/-
  The records of a sorted walk increase by their names. The
  induction is on the levels left: an entry comes before what is
  below it, and the entries come in the order of their names.
-/
theorem sorted_traverse
    (hSorts : w.SortsByName)
    (hParents : w.childFirst = false)
    (hSound : d.IsSound)
    (hIgnore : w.ignoreUnreadable = true)
    {fuel : Nat}
    {goals : List Goal}
    {trail : List String}
    (hTrail : ∀ step ∈ trail, Disk.IsName step) :
    (w.traverse d fuel (Record.pathAlong base trail) goals
      trail).records.Pairwise
        fun r s => r.names < s.names := by
  induction fuel generalizing goals trail with
  | zero => exact List.Pairwise.nil
  | succ fuel ih =>
      rw [records_traverse_succ hIgnore]
      split
      · exact List.Pairwise.nil
      · rw [List.pairwise_flatMap]
        constructor
        · intro entry hEntry
          rcases mem_listing_iff.mp hEntry with ⟨step, hListed⟩
          have hNames := hListed.isName hSound hTrail
          unfold visited
          dsimp only
          rw [hParents, if_neg Bool.false_ne_true,
            List.pairwise_append]
          refine ⟨?_, ?_, ?_⟩
          · split
            · exact List.pairwise_singleton _ _
            · exact List.Pairwise.nil
          · split
            · exact List.Pairwise.nil
            · rw [traverse_below hSound hTrail hListed]
              exact ih hNames
          · intro r hR s hS
            obtain rfl : r = entry := by
              split at hR
              · exact List.mem_singleton.mp hR
              · cases hR
            split at hS
            · cases hS
            · rw [traverse_below hSound hTrail hListed] at hS
              rcases names_of_mem_traverse hSound hIgnore hNames hS
                with ⟨rest, hSome, hBelow⟩
              rw [← hListed.names_eq hSound hTrail] at hBelow
              exact Record.names_lt_of_append hSome hBelow
        · apply (pairwise_parts_visited hSound hIgnore hTrail
            (hSorts.pairwise_name_lt hSound hTrail)).imp
          intro one other hParts r hR s hS
          exact (hParts r hR s hS).names_lt

end Walker

end Search

end SymbolAtlas

------------------------------------------------------------
-- Other Orders of Listing
------------------------------------------------------------

namespace SymbolAtlas

namespace Search

variable {d : Disk} {base : String} {trail : List String}

/- Entries of one directory are told apart by their names. -/
theorem Listed.eq_of_name_eq
    (hSound : d.IsSound)
    (hTrail : ∀ step ∈ trail, Disk.IsName step)
    {step turn : String}
    {one other : Record}
    (hOne : Listed d base trail step one)
    (hOther : Listed d base trail turn other)
    (hName : one.name = other.name) :
    one = other := by
  rw [hOne.name_eq hSound hTrail, hOther.name_eq hSound hTrail]
    at hName
  subst hName
  exact Option.some.inj (hOne.taken.symm.trans hOther.taken)

theorem listed_of_mem_ofDirectory
    {records : List Record}
    (hRecords :
      Record.ofDirectory d (Record.pathAlong base trail)
        (Path.joined trail) = .ok records)
    {record : Record}
    (hRecord : record ∈ records) :
    ∃ step, Listed d base trail step record := by
  have hEntries :
      ({} : Walker).entries d (Record.pathAlong base trail)
        (Path.joined trail) = .ok records := by
    unfold Walker.entries
    rw [hRecords]
    rfl
  rw [← Walker.listing_of_entries hEntries] at hRecord
  exact Walker.mem_listing_iff.mp hRecord

namespace Walker

variable {w : Walker}

/- Sorted by name, entries come in one order. -/
theorem SortsByName.entries_relisted
    (hSorts : w.SortsByName)
    (hSound : d.IsSound)
    (hTrail : ∀ step ∈ trail, Disk.IsName step)
    (listing : Listing) :
    w.entries (d.relisted listing) (Record.pathAlong base trail)
        (Path.joined trail) =
      w.entries d (Record.pathAlong base trail)
        (Path.joined trail) := by
  have hNames :
      ∀ records,
        Record.ofDirectory d (Record.pathAlong base trail)
            (Path.joined trail) = .ok records →
          ∀ one ∈ records, ∀ other ∈ records,
            one.name = other.name → one = other := by
    intro records hRecords one hOne other hOther
    rcases listed_of_mem_ofDirectory hRecords hOne with
      ⟨step, hStep⟩
    rcases listed_of_mem_ofDirectory hRecords hOther with
      ⟨turn, hTurn⟩
    exact hStep.eq_of_name_eq hSound hTrail hTurn
  have hAlike :=
    Record.ofDirectory_alike d listing
      (Record.pathAlong base trail) (Path.joined trail)
  unfold entries
  rw [hSorts]
  revert hAlike hNames
  generalize
    Record.ofDirectory d (Record.pathAlong base trail)
      (Path.joined trail) = first
  generalize
    Record.ofDirectory (d.relisted listing)
      (Record.pathAlong base trail) (Path.joined trail) = second
  rintro hNames (fault | hPerm)
  · rfl
  · exact congrArg Except.ok
      (mergeSort_by_eq_of_perm hPerm (hNames _ rfl)).symm

/- What happens at an entry depends on what happens below it. -/
theorem visit_congr
    {goals : List Goal}
    {below other : List Goal → Record → Trace Nat}
    {record : Record}
    (hBelow : ∀ deeper, below deeper record = other deeper record) :
    w.visit goals below record = w.visit goals other record := by
  unfold visit
  simp only [hBelow]

/- A sorted walk does the same in every order of listing. -/
theorem traverse_relisted
    (hSorts : w.SortsByName)
    (hSound : d.IsSound)
    (listing : Listing)
    {fuel : Nat}
    {goals : List Goal}
    (hTrail : ∀ step ∈ trail, Disk.IsName step) :
    w.traverse (d.relisted listing) fuel
        (Record.pathAlong base trail) goals trail =
      w.traverse d fuel (Record.pathAlong base trail) goals
        trail := by
  induction fuel generalizing goals trail with
  | zero => rfl
  | succ fuel ih =>
      unfold traverse
      rw [hSorts.entries_relisted hSound hTrail]
      split
      · rfl
      · split
        · rfl
        · next records hEntries =>
            congr 1
            apply List.map_congr_left
            intro record hRecord
            apply visit_congr
            intro deeper
            rw [← listing_of_entries hEntries] at hRecord
            rcases mem_listing_iff.mp hRecord with ⟨step, hListed⟩
            rw [hListed.path_eq, hListed.name_eq hSound hTrail]
            exact ih (hListed.isName hSound hTrail)

theorem walk_relisted
    (hSorts : w.SortsByName)
    (hSound : d.IsSound)
    (listing : Listing)
    (base : String)
    (goals : List Goal) :
    w.walk (d.relisted listing) base goals =
      w.walk d base goals :=
  traverse_relisted hSorts hSound listing (List.forall_mem_nil _)

end Walker

end Search

/- A query that sorts by name runs the same. -/
theorem Query.run_relisted
    {q : Query}
    (hOrder : q.order = some Record.SortKey.name.le)
    (hAppended : q.appended = [])
    {d : Disk}
    (hSound : d.IsSound)
    (listing : Listing) :
    q.run (d.relisted listing) = q.run d := by
  have hWalk :
      ∀ directory goals,
        q.walker.walk (d.relisted listing) directory goals =
          q.walker.walk d directory goals :=
    Search.Walker.walk_relisted (w := q.walker) hOrder hSound
      listing
  unfold run plan walkPlan
  rw [Search.plan_relisted, hAppended]
  simp only [hWalk, List.map_nil]

namespace Sources

variable {d : Disk}

/- The sources in a directory are searched sorted by name. -/
theorem order_queryOf
    {s : Settings}
    {directory : String}
    {q : Query}
    (hQuery : queryOf d s directory = .ok q) :
    q.order = some Record.SortKey.name.le := by
  rcases queryOf_eq_ok_iff.mp hQuery with
    ⟨banned, plain, -, hPlain, rfl⟩
  change plain.order = _
  unfold plainQuery at hPlain
  simp only [bind, Except.bind, pure, Except.pure] at hPlain
  split at hPlain
  · cases hPlain
  · split at hPlain
    · cases hPlain
    · split at hPlain
      · cases hPlain
      · cases hPlain
        rfl

/- A root has the same sources in the same order. -/
theorem ofRoot_relisted
    (hSound : d.IsSound)
    (listing : Listing)
    (s : Settings)
    (root : String) :
    ofRoot (d.relisted listing) s root = ofRoot d s root := by
  have hRun :
      ∀ directory q, queryOf d s directory = .ok q →
        q.run (d.relisted listing) = q.run d :=
    fun directory q hQuery =>
      Query.run_relisted (order_queryOf hQuery)
        (queryOf_shape hQuery).2.2 hSound listing
  rw [ofRoot_eq, ofRoot_eq, Settings.resolvePath_relisted]
  split
  · rfl
  · next path _ =>
      rw [Disk.stat_relisted, queryOf_relisted]
      split
      · rfl
      · split
        · split
          · rfl
          · next q hQuery => rw [hRun path q hQuery]
        · rfl

/- So have the settings. -/
theorem ofSettings_relisted
    (hSound : d.IsSound)
    (listing : Listing)
    (s : Settings) :
    ofSettings (d.relisted listing) s = ofSettings d s := by
  have hRoot :
      ofRoot (d.relisted listing) s = ofRoot d s :=
    funext (ofRoot_relisted hSound listing s)
  have hFile :
      ofFile (d.relisted listing) s = ofFile d s :=
    funext (ofFile_relisted d listing s)
  unfold ofSettings
  rw [hRoot, hFile]

end Sources

end SymbolAtlas

------------------------------------------------------------
-- One Order
------------------------------------------------------------

namespace SymbolAtlas

namespace Search

/-
  Sorting by name makes a walk independent of the disk's own
  order. The names that lead to its records increase, compared
  one after the other, and a directory comes before what is in
  it. In every order of listing the walk is the same, and so are
  the sources that settings ask for.
-/
theorem sorted_by_name
    {d : Disk}
    (hSound : d.IsSound) :
    (∀ (w : Walker) (base : String) (goals : List Goal),
      w.SortsByName →
        (w.childFirst = false →
          w.ignoreUnreadable = true →
            (w.walk d base goals).records.Pairwise
              fun r s => r.names < s.names) ∧
        ∀ listing,
          w.walk (d.relisted listing) base goals =
            w.walk d base goals) ∧
      ∀ (s : Settings) (listing : Listing),
        Sources.ofSettings (d.relisted listing) s =
          Sources.ofSettings d s := by
  refine ⟨fun w base goals hSorts => ⟨?_, ?_⟩, ?_⟩
  · intro hParents hIgnore
    exact Walker.sorted_traverse hSorts hParents hSound hIgnore
      (List.forall_mem_nil _)
  · intro listing
    exact Walker.walk_relisted hSorts hSound listing base goals
  · intro s listing
    exact Sources.ofSettings_relisted hSound listing s

/- A directory and a file whose name goes on with a dot. -/
def dottedLibrary : Disk where
  nodes :=
    [(["lib"], .newDirectory),
      (["lib", "a.php"], .file .empty 1000),
      (["lib", "a"], .newDirectory),
      (["lib", "a", "b.php"], .file .empty 1000)]

/- Names are listed backwards. -/
def backwards : Listing :=
  ⟨fun _ names => names.reverse,
    fun _ names => names.reverse_perm⟩

/- The walker that only sorts by name. -/
def sorter : Walker where
  order := some Record.SortKey.name.le

theorem listing_dottedLibrary :
    sorter.listing dottedLibrary "/lib" "" =
      [⟨"/lib/a", "a", .dir, Node.directoryTime⟩,
        ⟨"/lib/a.php", "a.php", .file, 1000⟩] := by
  have hNames :
      (["a.php", "a"].mergeSort fun a b => decide (b ≤ a)) =
        ["a.php", "a"] := by
    simp [List.mergeSort, List.MergeSort.Internal.splitInTwo]
  have hList :
      dottedLibrary.list "/lib" = .ok ["a.php", "a"] :=
    congrArg Except.ok hNames
  have hSorted :
      ([⟨"/lib/a.php", "a.php", .file, 1000⟩,
        ⟨"/lib/a", "a", .dir, Node.directoryTime⟩] :
          List Record).mergeSort Record.SortKey.name.le =
        [⟨"/lib/a", "a", .dir, Node.directoryTime⟩,
          ⟨"/lib/a.php", "a.php", .file, 1000⟩] := by
    have hBehind :
        Record.SortKey.name.le
          ⟨"/lib/a.php", "a.php", .file, 1000⟩
          ⟨"/lib/a", "a", .dir, Node.directoryTime⟩ = false := by
      decide
    simp [List.mergeSort, List.MergeSort.Internal.splitInTwo,
      hBehind]
  unfold Walker.listing Walker.entries Record.ofDirectory
  rw [hList]
  exact hSorted

/-
  What is in the directory comes before the file, although a
  slash comes after a dot, whichever way the names are listed.
-/
theorem dotted_library_sorted :
    ((sorter.walk (dottedLibrary.relisted backwards) "/lib"
        everyGoal).records.map Record.relative =
          ["a", "a/b.php", "a.php"] ∧
      "a.php" < "a/b.php") ∧
      (sorter.walk dottedLibrary "/lib" everyGoal).records.Pairwise
          (fun r s => r.names < s.names) ∧
      Sources.ofSettings (dottedLibrary.relisted backwards)
          { roots := ["/lib"] } =
        Sources.ofSettings dottedLibrary { roots := ["/lib"] } := by
  have hSorted :=
    sorted_by_name (d := dottedLibrary) ⟨by decide, by decide⟩
  have hWalk := hSorted.1 sorter "/lib" everyGoal rfl
  refine ⟨⟨?_, by decide⟩, hWalk.1 rfl rfl, hSorted.2 _ _⟩
  have hLevels : Walker.depthBound dottedLibrary = 251 + 1 := rfl
  rw [hWalk.2 backwards, Walker.walk, hLevels,
    Walker.records_traverse_succ rfl]
  change List.map _ (List.flatMap _
    (sorter.listing dottedLibrary "/lib" "")) = _
  rw [listing_dottedLibrary]
  decide +kernel

end Search

end SymbolAtlas
