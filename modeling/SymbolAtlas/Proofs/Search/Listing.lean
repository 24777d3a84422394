import Mathlib.Data.List.Perm.Basic
import SymbolAtlas.Proofs.Search.Findings

/-
  Searches do not depend on the order of listings.

  A disk lists the names in a directory in an order of its own.
  With another order every question about a single path has the
  same answer, and a walk meets the same records, though not in
  the same order. So it fails with one order if and only if it
  fails with the other one, and otherwise finds the same.

  Key definitions:
    * `Disk.relisted`, the disk with another order
    * `Search.Trace.Alike`
  Key theorems:
    * `Disk.stat_relisted`, `Disk.resolve_relisted`
    * `Search.directories_relisted`
    * `Search.Walker.traverse_alike`
    * `Sources.ofRoot_alike`
-/

------------------------------------------------------------
-- Questions about Paths
------------------------------------------------------------

namespace SymbolAtlas

namespace Disk

/- The disk with another order of listings. -/
def relisted (d : Disk) (listing : Listing) : Disk :=
  { d with listing := listing }

variable (d : Disk) (listing : Listing)

@[simp] theorem cwd_relisted :
    (d.relisted listing).cwd = d.cwd :=
  rfl

theorem advance_relisted
    (followLast : Bool)
    (place : Place)
    (names : List String) :
    (d.relisted listing).advance followLast place names =
      d.advance followLast place names := by
  induction names generalizing place with
  | nil => rfl
  | cons name rest ih =>
      have hNode :
          (d.relisted listing).node? (place ++ [name]) =
            d.node? (place ++ [name]) :=
        rfl
      simp only [advance, hNode, ih]

theorem follow_relisted
    (followLast : Bool)
    (links : Nat)
    (place : Place)
    (names : List String) :
    (d.relisted listing).follow followLast links place names =
      d.follow followLast links place names := by
  induction links generalizing place names with
  | zero =>
      unfold follow
      rw [advance_relisted]
  | succ links ih =>
      unfold follow
      rw [advance_relisted]
      simp only [ih]

@[simp] theorem locate_relisted
    (followLast : Bool)
    (path : String) :
    (d.relisted listing).locate followLast path =
      d.locate followLast path := by
  unfold locate
  rw [follow_relisted, cwd_relisted]

@[simp] theorem stat_relisted
    (path : String) :
    (d.relisted listing).stat path = d.stat path := by
  unfold stat
  rw [locate_relisted]

@[simp] theorem exists?_relisted :
    (d.relisted listing).exists? = d.exists? := by
  funext path
  unfold exists?
  rw [stat_relisted]

@[simp] theorem isDirectory_relisted :
    (d.relisted listing).isDirectory = d.isDirectory := by
  funext path
  unfold isDirectory
  rw [stat_relisted]

@[simp] theorem isPresent_relisted
    (path : String) :
    (d.relisted listing).isPresent path = d.isPresent path := by
  unfold isPresent
  rw [locate_relisted]

@[simp] theorem read_relisted
    (path : String) :
    (d.relisted listing).read path = d.read path := by
  unfold read
  rw [locate_relisted]

theorem runErrands_relisted
    (fuel : Nat)
    (known : List (Place × Place))
    (place : Place)
    (errands : List Errand) :
    (d.relisted listing).runErrands fuel known place errands =
      d.runErrands fuel known place errands := by
  induction fuel generalizing known place errands with
  | zero => rfl
  | succ fuel ih =>
      rcases errands with _ | ⟨name | link, rest⟩
      · rfl
      · have hNode :
            (d.relisted listing).node? (place ++ [name]) =
              d.node? (place ++ [name]) :=
          rfl
        simp only [runErrands, hNode, ih]
      · exact ih _ _ _

@[simp] theorem resolve_relisted
    (path : String) :
    (d.relisted listing).resolve path = d.resolve path := by
  have hReal :
      ∀ start names,
        (d.relisted listing).realRoute start names =
          d.realRoute start names := by
    intro start names
    unfold realRoute
    rw [runErrands_relisted]
    rfl
  unfold resolve
  simp only [hReal, stat_relisted, cwd_relisted]

theorem expandHome_relisted
    (route : Route) :
    (d.relisted listing).expandHome route =
      d.expandHome route :=
  rfl

end Disk

@[simp] theorem Settings.resolvePath_relisted
    (s : Settings)
    (d : Disk)
    (listing : Listing) :
    s.resolvePath (d.relisted listing) = s.resolvePath d := by
  funext path
  unfold resolvePath Disk.realPath
  simp only [Disk.resolve_relisted, Disk.expandHome_relisted]

end SymbolAtlas

------------------------------------------------------------
-- Listings
------------------------------------------------------------

namespace SymbolAtlas

/-
  Both listings fail for the same reason, or both hold the same
  items, each as often.
-/
inductive ListedAlike {α : Type} :
    Except Fault (List α) → Except Fault (List α) → Prop
| fault (fault : Fault) :
    ListedAlike (.error fault) (.error fault)
| items {items others : List α} (hPerm : items.Perm others) :
    ListedAlike (.ok items) (.ok others)

/- What keeps permutations keeps listings alike. -/
theorem ListedAlike.map
    {α β : Type}
    {first second : Except Fault (List α)}
    {f : List α → List β}
    (hAlike : ListedAlike first second)
    (hPerm :
      ∀ items others, items.Perm others →
        (f items).Perm (f others)) :
    ListedAlike (first.map f) (second.map f) := by
  cases hAlike with
  | fault fault => exact .fault fault
  | items hItems => exact .items (hPerm _ _ hItems)

/- The names in a directory are the same in another order. -/
theorem Disk.list_alike
    (d : Disk)
    (listing : Listing)
    (path : String) :
    ListedAlike (d.list path)
      ((d.relisted listing).list path) := by
  unfold list
  rw [locate_relisted]
  change ListedAlike _
    (if d.denied.contains (d.absoluteText path) then _ else _)
  split
  · exact .fault _
  · split
    · exact .fault _
    · next found _ =>
        split
        · have hFirst := d.listing.perm found.place
            (d.childNames found.place)
          have hSecond := listing.perm found.place
            (d.childNames found.place)
          exact .items (hFirst.trans hSecond.symm)
        · exact .fault _
        · exact .fault _

namespace Record

theorem ofListed?_relisted
    (d : Disk)
    (listing : Listing)
    (directory above name : String) :
    ofListed? (d.relisted listing) directory above name =
      ofListed? d directory above name := by
  unfold ofListed?
  rw [Disk.stat_relisted]

theorem ofDirectory_alike
    (d : Disk)
    (listing : Listing)
    (directory above : String) :
    ListedAlike (ofDirectory d directory above)
      (ofDirectory (d.relisted listing) directory above) := by
  unfold ofDirectory
  have hRecord :
      ofListed? (d.relisted listing) directory above =
        ofListed? d directory above :=
    funext (ofListed?_relisted d listing directory above)
  rw [hRecord]
  exact (d.list_alike listing directory).map
    fun _ _ hPerm => hPerm.filterMap _

end Record

end SymbolAtlas

------------------------------------------------------------
-- Wildcards
------------------------------------------------------------

namespace SymbolAtlas

namespace Glob

variable (d : Disk) (listing : Listing)

theorem literal_relisted
    (directory : String)
    (name : List Char) :
    literal (d.relisted listing) directory name =
      literal d directory name := by
  unfold literal
  simp only [Disk.isDirectory_relisted, Disk.isPresent_relisted]

theorem matching_perm
    (directory : String)
    (pattern : List Char)
    (onlyDirs : Bool) :
    (matching d directory pattern onlyDirs).Perm
      (matching (d.relisted listing) directory pattern
        onlyDirs) := by
  have hNames :
      (namesIn d directory onlyDirs).Perm
        (namesIn (d.relisted listing) directory onlyDirs) := by
    unfold namesIn
    dsimp only
    rw [Disk.isDirectory_relisted]
    generalize hPath :
      (if directory.isEmpty then "." else directory) = path
    have hAlike := d.list_alike listing path
    revert hAlike
    generalize d.list path = first
    generalize (d.relisted listing).list path = second
    rintro (fault | hPerm)
    · exact List.Perm.refl _
    · dsimp only
      split
      · exact hPerm.filter _
      · exact hPerm
  unfold matching
  dsimp only
  split
  · exact hNames.filter _
  · exact (hNames.filter _).filter _

/- A pattern is met by the same paths in another order. -/
theorem expandFrom_perm
    (fuel : Nat)
    (pattern : List Char)
    (onlyDirs : Bool) :
    (expandFrom d fuel pattern onlyDirs).Perm
      (expandFrom (d.relisted listing) fuel pattern
        onlyDirs) := by
  induction fuel generalizing pattern onlyDirs with
  | zero => exact List.Perm.refl _
  | succ fuel ih =>
      unfold expandFrom
      dsimp only
      rw [Disk.isDirectory_relisted, Disk.isPresent_relisted]
      split
      · exact List.Perm.refl _
      · split
        · exact matching_perm d listing _ _ _
        · apply List.Perm.flatMap
          · split
            · exact ih _ _
            · exact List.Perm.refl _
          · intro directory _
            rw [literal_relisted]
            split
            · exact (matching_perm d listing _ _ _).map _
            · exact List.Perm.refl _

end Glob

namespace Search

/- Sorted by a text, items stand in the order of the texts. -/
theorem pairwise_mergeSort_by
    {α : Type}
    (text : α → String)
    (items : List α) :
    (items.mergeSort fun a b =>
      decide (text a ≤ text b)).Pairwise
        fun a b => text a ≤ text b := by
  have hSorted :
      (items.mergeSort fun a b =>
        decide (text a ≤ text b)).Pairwise
          fun a b => decide (text a ≤ text b) = true := by
    refine List.pairwise_mergeSort ?_ ?_ items
    · intro a b c hAB hBC
      rw [decide_eq_true_eq] at hAB hBC ⊢
      exact String.le_trans hAB hBC
    · intro a b
      simpa using String.le_total (text a) (text b)
  exact hSorted.imp of_decide_eq_true

/-
  Sorted by a text that tells them apart, items do not depend on
  the order before.
-/
theorem mergeSort_by_eq_of_perm
    {α : Type}
    {text : α → String}
    {items others : List α}
    (hPerm : items.Perm others)
    (hText :
      ∀ a ∈ items, ∀ b ∈ items, text a = text b → a = b) :
    (items.mergeSort fun a b => decide (text a ≤ text b)) =
      others.mergeSort fun a b => decide (text a ≤ text b) := by
  refine List.Perm.eq_of_pairwise ?_
    (pairwise_mergeSort_by text items)
    (pairwise_mergeSort_by text others) ?_
  · intro a b hA hB hAB hBA
    rw [List.mem_mergeSort] at hA hB
    exact hText a hA b (hPerm.mem_iff.mpr hB)
      (String.le_antisymm hAB hBA)
  · exact (List.mergeSort_perm _ _).trans
      (hPerm.trans (List.mergeSort_perm _ _).symm)

/- Sorted texts do not depend on the order before. -/
theorem mergeSort_eq_of_perm
    {texts others : List String}
    (hPerm : texts.Perm others) :
    (texts.mergeSort fun a b => decide (a ≤ b)) =
      others.mergeSort fun a b => decide (a ≤ b) :=
  mergeSort_by_eq_of_perm hPerm fun _ _ _ _ hSame => hSame

/- A base stands for the same directories in the same order. -/
theorem directories_relisted
    (d : Disk)
    (listing : Listing)
    (base : String) :
    directories (d.relisted listing) base =
      directories d base := by
  have hPerm :
      ((Glob.expand (d.relisted listing) base).filter
          d.isDirectory).Perm
        ((Glob.expand d base).filter d.isDirectory) :=
    (Glob.expandFrom_perm d listing _ _ _).symm.filter _
  unfold directories
  simp only [Disk.isDirectory_relisted,
    mergeSort_eq_of_perm hPerm]

end Search

end SymbolAtlas

------------------------------------------------------------
-- Walks
------------------------------------------------------------

namespace SymbolAtlas

namespace Search

namespace Trace

variable {ι κ : Type}

/-
  Either both traces fail, or neither fails and both find the
  same records, each as often.
-/
def Alike (t u : Trace ι) : Prop :=
  (t.failure = none ↔ u.failure = none) ∧
    (t.failure = none → t.records.Perm u.records)

theorem Alike.refl
    (t : Trace ι) :
    t.Alike t :=
  ⟨Iff.rfl, fun _ => List.Perm.refl _⟩

theorem failure_append_eq_none_iff
    {first second : Trace ι} :
    (first ++ second).failure = none ↔
      first.failure = none ∧ second.failure = none := by
  change (append first second).failure = none ↔ _
  unfold append
  cases hFirst : first.failure <;> simp [hFirst]

theorem records_append
    {first : Trace ι}
    (second : Trace ι)
    (hFirst : first.failure = none) :
    (first ++ second).records =
      first.records ++ second.records := by
  change (append first second).records = _
  unfold append records
  rw [hFirst]
  exact List.filterMap_append

theorem failure_concat_eq_none_iff
    {traces : List (Trace ι)} :
    (concat traces).failure = none ↔
      ∀ trace ∈ traces, trace.failure = none := by
  induction traces with
  | nil => simp [concat, empty]
  | cons first rest ih =>
      change (first ++ concat rest).failure = none ↔ _
      rw [failure_append_eq_none_iff, ih, List.forall_mem_cons]

theorem records_concat
    {traces : List (Trace ι)}
    (hTraces : ∀ trace ∈ traces, trace.failure = none) :
    (concat traces).records = traces.flatMap records := by
  induction traces with
  | nil => rfl
  | cons first rest ih =>
      rw [List.forall_mem_cons] at hTraces
      change (first ++ concat rest).records = _
      rw [records_append _ hTraces.1, ih hTraces.2,
        List.flatMap_cons]

theorem Alike.append
    {first second other another : Trace ι}
    (hFirst : first.Alike other)
    (hSecond : second.Alike another) :
    (first ++ second).Alike (other ++ another) := by
  refine ⟨?_, fun hNone => ?_⟩
  · rw [failure_append_eq_none_iff, failure_append_eq_none_iff,
      hFirst.1, hSecond.1]
  · rw [failure_append_eq_none_iff] at hNone
    rw [records_append _ hNone.1,
      records_append _ (hFirst.1.mp hNone.1)]
    exact (hFirst.2 hNone.1).append (hSecond.2 hNone.2)

/- Traces of the same items may come in any order. -/
theorem Alike.concat
    {α : Type}
    {items others : List α}
    {f g : α → Trace ι}
    (hPerm : items.Perm others)
    (hAlike : ∀ item ∈ items, (f item).Alike (g item)) :
    (Trace.concat (items.map f)).Alike
      (Trace.concat (others.map g)) := by
  have hFailure :
      (Trace.concat (items.map f)).failure = none ↔
        (Trace.concat (others.map g)).failure = none := by
    simp only [failure_concat_eq_none_iff, List.forall_mem_map]
    constructor
    · intro hItems item hItem
      have hMem := hPerm.mem_iff.mpr hItem
      exact (hAlike item hMem).1.mp (hItems item hMem)
    · intro hOthers item hItem
      have hMem := hPerm.mem_iff.mp hItem
      exact (hAlike item hItem).1.mpr (hOthers item hMem)
  refine ⟨hFailure, fun hNone => ?_⟩
  have hOther := hFailure.mp hNone
  rw [failure_concat_eq_none_iff] at hNone hOther
  rw [records_concat hNone, records_concat hOther,
    List.flatMap_map, List.flatMap_map]
  apply List.Perm.flatMap hPerm
  intro item hItem
  exact (hAlike item hItem).2
    (hNone _ (List.mem_map_of_mem hItem))

theorem Alike.map
    {t u : Trace ι}
    (hAlike : t.Alike u)
    (f : ι → κ) :
    (t.map f).Alike (u.map f) := by
  refine ⟨hAlike.1, fun hNone => ?_⟩
  rw [records_map, records_map]
  exact hAlike.2 hNone

end Trace

namespace Walker

variable (w : Walker) (d : Disk) (listing : Listing)

theorem entries_alike
    (directory above : String) :
    ListedAlike (w.entries d directory above)
      (w.entries (d.relisted listing) directory above) := by
  unfold entries
  apply (Record.ofDirectory_alike d listing directory above).map
  intro records others hPerm
  cases w.order with
  | none => exact hPerm
  | some le =>
      exact (List.mergeSort_perm _ _).trans
        (hPerm.trans (List.mergeSort_perm _ _).symm)

theorem visit_alike
    {below other : List Goal → Record → Trace Nat}
    (hBelow :
      ∀ goals record,
        (below goals record).Alike (other goals record))
    (goals : List Goal)
    (record : Record) :
    (w.visit goals below record).Alike
      (w.visit goals other record) := by
  unfold visit
  dsimp only
  have hDown :
      (if (w.descend goals record).1.isEmpty then .empty
        else below (w.descend goals record).1 record).Alike
      (if (w.descend goals record).1.isEmpty then .empty
        else other (w.descend goals record).1 record) := by
    split
    · exact Trace.Alike.refl _
    · exact hBelow _ _
  split
  · exact ((Trace.Alike.refl _).append hDown).append
      (Trace.Alike.refl _)
  · exact ((Trace.Alike.refl _).append
      (Trace.Alike.refl _)).append hDown

/- A walk meets the same records in another order. -/
theorem traverse_alike
    (fuel : Nat)
    (directory : String)
    (goals : List Goal)
    (subdirs : List String) :
    (w.traverse d fuel directory goals subdirs).Alike
      (w.traverse (d.relisted listing) fuel directory goals
        subdirs) := by
  induction fuel generalizing directory goals subdirs with
  | zero => exact Trace.Alike.refl _
  | succ fuel ih =>
      unfold traverse
      split
      · exact Trace.Alike.refl _
      · have hEntries :=
          w.entries_alike d listing directory
            (Path.joined subdirs)
        revert hEntries
        generalize w.entries d directory (Path.joined subdirs) =
          first
        generalize w.entries (d.relisted listing) directory
          (Path.joined subdirs) = second
        rintro (fault | hPerm)
        · exact Trace.Alike.refl _
        · apply Trace.Alike.concat hPerm
          intro record _
          exact w.visit_alike
            (fun deeper below => ih below.path deeper _)
            goals record

theorem walk_alike
    (directory : String)
    (goals : List Goal) :
    (w.walk d directory goals).Alike
      (w.walk (d.relisted listing) directory goals) :=
  w.traverse_alike d listing _ directory goals []

end Walker

end Search

end SymbolAtlas

------------------------------------------------------------
-- Searches of Roots
------------------------------------------------------------

namespace SymbolAtlas

namespace Search

theorem plan_relisted
    (d : Disk)
    (listing : Listing)
    (locations : List String)
    (requests : List Request) :
    plan (d.relisted listing) locations requests =
      plan d locations requests := by
  have hSplit :
      addSplit (d.relisted listing) = addSplit d := by
    funext kind plan split
    unfold addSplit
    simp only [directories_relisted]
  have hRequest :
      addRequest (d.relisted listing) = addRequest d := by
    funext locations plan request
    unfold addRequest
    rw [hSplit]
  unfold plan
  rw [hRequest]

end Search

/- A query that nothing was appended to runs alike. -/
theorem Query.run_alike
    {q : Query}
    (hAppended : q.appended = [])
    (d : Disk)
    (listing : Listing) :
    (q.run d).Alike (q.run (d.relisted listing)) := by
  unfold run plan
  rw [Search.plan_relisted, hAppended]
  cases Search.plan d q.locations q.requests with
  | error error => exact Search.Trace.Alike.refl _
  | ok plan =>
      refine Search.Trace.Alike.append ?_
        (Search.Trace.Alike.refl _)
      unfold walkPlan
      refine Search.Trace.Alike.map ?_ q.labelOf
      apply Search.Trace.Alike.concat (List.Perm.refl _)
      rintro ⟨directory, goals⟩ _
      exact q.walker.walk_alike d listing directory goals

namespace Sources

theorem queryOf_relisted
    (d : Disk)
    (listing : Listing)
    (s : Settings)
    (directory : String) :
    queryOf (d.relisted listing) s directory =
      queryOf d s directory := by
  have hAllowed :
      isAllowed (d.relisted listing) = isAllowed d := by
    funext banned record
    unfold isAllowed
    rw [Disk.resolve_relisted]
  unfold queryOf existing
  rw [hAllowed, Settings.resolvePath_relisted,
    Disk.exists?_relisted]

/-
  Either both lists of sources are cut short, or both are whole
  and hold the same sources, each as often.
-/
def Alike (s t : Sources) : Prop :=
  (s.failure = none ↔ t.failure = none) ∧
    (s.failure = none → s.items.Perm t.items)

theorem Alike.refl
    (s : Sources) :
    s.Alike s :=
  ⟨Iff.rfl, fun _ => List.Perm.refl _⟩

theorem Alike.ofTrace
    {ι : Type}
    {t u : Search.Trace ι}
    (hAlike : t.Alike u) :
    (Sources.ofTrace t).Alike (Sources.ofTrace u) :=
  ⟨hAlike.1, fun hNone => (hAlike.2 hNone).map _⟩

/- The sources of a root, step by step. -/
theorem ofRoot_eq
    (d : Disk)
    (s : Settings)
    (root : String) :
    ofRoot d s root =
      match s.resolvePath d root with
      | .error error => fail error
      | .ok path =>
          match d.stat path with
          | .error _ => fail (.noRoot root)
          | .ok stat =>
              if stat.isDirectory then
                match queryOf d s path with
                | .error error => fail error
                | .ok q => Sources.ofTrace (q.run d)
              else ⟨[⟨path, stat.mtime, false⟩], none⟩ := by
  unfold ofRoot
  cases s.resolvePath d root with
  | error error => rfl
  | ok path =>
      simp only [bind, Except.bind]
      cases d.stat path with
      | error fault => rfl
      | ok stat =>
          dsimp only
          split
          · cases queryOf d s path <;> rfl
          · rfl

/- A root has the same sources in another order. -/
theorem ofRoot_alike
    (d : Disk)
    (listing : Listing)
    (s : Settings)
    (root : String) :
    (ofRoot d s root).Alike
      (ofRoot (d.relisted listing) s root) := by
  rw [ofRoot_eq, ofRoot_eq, Settings.resolvePath_relisted]
  split
  · exact Alike.refl _
  · next path _ =>
      rw [Disk.stat_relisted]
      split
      · exact Alike.refl _
      · split
        · rw [queryOf_relisted]
          split
          · exact Alike.refl _
          · next q hQuery =>
              have hNothing := (queryOf_shape hQuery).2.2
              exact Alike.ofTrace
                (Query.run_alike hNothing d listing)
        · exact Alike.refl _

theorem ofFile_relisted
    (d : Disk)
    (listing : Listing)
    (s : Settings)
    (file : String) :
    ofFile (d.relisted listing) s file = ofFile d s file := by
  unfold ofFile
  simp only [Settings.resolvePath_relisted, Disk.stat_relisted]

end Sources

end SymbolAtlas
