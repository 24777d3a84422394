import SymbolAtlas.Proofs.Disk.Directories
import SymbolAtlas.Proofs.Disk.Outside
import SymbolAtlas.Proofs.Search.Findings
import SymbolAtlas.Proofs.Search.Listing

/-
  Wildcards on disks that differ in one directory.

  A pattern may meet files that only one of the disks has. In the
  end only directories count, and what a pattern meets below a
  file is nothing. So a rooted base stands for the same
  directories on both disks, and searches have the same plan.

  Key theorems:
    * `Disk.isDirectory_of_child`
    * `Glob.expandFrom_perm_of_twins`
    * `Search.plan_of_twins`
-/

------------------------------------------------------------
-- Paths Through Directories
------------------------------------------------------------

namespace SymbolAtlas

namespace Disk

variable {d : Disk} {place : Place}

/- An approach by more names goes on from where the first lead. -/
theorem approach_append
    (front back : List String) :
    d.approach place (front ++ back) =
      match d.approach place front with
      | .error fault => .error fault
      | .ok (.reached middle) => d.approach middle back
      | .ok (.detour parent target rest) =>
          .ok (.detour parent target (rest ++ back)) := by
  induction front generalizing place with
  | nil => rfl
  | cons name rest ih =>
      rw [List.cons_append, approach, approach]
      split
      · exact ih
      split
      · exact ih
      split
      · rfl
      · rfl
      · exact ih
      · rfl

/- What is reached by some names is reached through the first. -/
theorem exists_reach_of_append
    {links : Nat}
    {front back : List String}
    {goal : Place}
    (hReach : d.reach links place (front ++ back) = .ok goal) :
    ∃ middle, d.reach links place front = .ok middle := by
  induction links generalizing place front with
  | zero =>
      unfold reach at hReach ⊢
      rw [approach_append] at hReach
      cases hWay : d.approach place front with
      | error fault =>
          rw [hWay] at hReach
          cases hReach
      | ok way =>
          rw [hWay] at hReach
          cases way with
          | reached middle => exact ⟨middle, rfl⟩
          | detour parent target rest => cases hReach
  | succ links ih =>
      unfold reach at hReach ⊢
      rw [approach_append] at hReach
      cases hWay : d.approach place front with
      | error fault =>
          rw [hWay] at hReach
          cases hReach
      | ok way =>
          rw [hWay] at hReach
          cases way with
          | reached middle => exact ⟨middle, rfl⟩
          | detour parent target rest =>
              dsimp only at hReach
              rw [← List.append_assoc] at hReach
              exact ih hReach

/- A name that is void leads nowhere else. -/
theorem reach_append_void
    {void : String}
    (hVoid : Route.isVoid void = true)
    (links : Nat)
    (names : List String) :
    d.reach links place (names ++ [void]) =
      d.reach links place names := by
  have hStays (middle : Place) :
      d.approach middle [void] = .ok (.reached middle) := by
    rw [approach, if_pos hVoid]
    rfl
  induction links generalizing place names with
  | zero =>
      unfold reach
      rw [approach_append]
      cases d.approach place names with
      | error fault => rfl
      | ok way =>
          cases way with
          | reached middle => dsimp only; rw [hStays]
          | detour parent target rest => rfl
  | succ links ih =>
      unfold reach
      rw [approach_append]
      cases d.approach place names with
      | error fault => rfl
      | ok way =>
          cases way with
          | reached middle => dsimp only; rw [hStays]
          | detour parent target rest =>
              dsimp only
              rw [← List.append_assoc]
              exact ih _

variable {path : String}

/- A rooted path of a directory leads through directories. -/
theorem isDirectory_iff_reach
    (hRooted : Path.isRooted path = true) :
    d.isDirectory path = true ↔
      ∃ goal,
        d.reach linkLimit [] (Path.names path) = .ok goal := by
  have hSome : path.isEmpty = false := by
    cases hEmpty : path.isEmpty with
    | false => rfl
    | true =>
        rw [String.isEmpty_iff] at hEmpty
        rw [hEmpty] at hRooted
        cases hRooted
  constructor
  · intro hDirectory
    rcases isDirectory_iff.mp hDirectory with
      ⟨goal, mtime, hLocate⟩
    unfold locate at hLocate
    rw [hSome, hRooted] at hLocate
    exact ⟨goal, reach_of_follow hLocate⟩
  · rintro ⟨goal, hReach⟩
    rcases follow_of_reach (grounded_nil d) hReach true with
      ⟨last, node, hFollow, hNode⟩
    rcases hNode rfl with ⟨mtime, rfl⟩
    apply isDirectory_iff.mpr
    refine ⟨last, mtime, ?_⟩
    unfold locate
    rw [hSome, hRooted]
    exact hFollow

theorem isPresent_of_isDirectory
    (hRooted : Path.isRooted path = true)
    (hDirectory : d.isDirectory path = true) :
    d.isPresent path = true := by
  rcases (isDirectory_iff_reach hRooted).mp hDirectory with
    ⟨goal, hReach⟩
  rcases follow_of_reach (grounded_nil d) hReach false with
    ⟨last, node, hFollow, -⟩
  have hLocate : d.locate false path = .ok ⟨last, some node⟩ := by
    unfold locate
    split
    · next hEmpty =>
        rw [String.isEmpty_iff] at hEmpty
        rw [hEmpty] at hRooted
        cases hRooted
    · exact hFollow
  unfold isPresent
  rw [hLocate]
  rfl

/- A directory lies in a directory. -/
theorem isDirectory_of_child
    (hRooted : Path.isRooted path = true)
    {text : String}
    (hText : '/' ∉ text.toList)
    (hChild : d.isDirectory (Path.child path text) = true) :
    d.isDirectory path = true := by
  rw [isDirectory_iff_reach (Path.isRooted_child hRooted text)]
    at hChild
  rw [isDirectory_iff_reach hRooted]
  rcases hChild with ⟨goal, hReach⟩
  have hNames :
      ∃ front,
        Path.names (Path.child path text) = front ++ [text] ∧
        ∀ links,
          d.reach links [] (Path.names path) =
            d.reach links [] front := by
    have hPlain : Path.isRooted text = false := by
      cases hStart : Path.isRooted text with
      | false => rfl
      | true =>
          rcases Path.isRooted_iff.mp hStart with ⟨rest, hRest⟩
          exact absurd (by rw [hRest]; simp) hText
    unfold Path.child
    rw [hPlain, if_neg Bool.false_ne_true]
    split
    · next hEnd =>
        rw [Bool.or_eq_true, String.isEmpty_iff, beq_iff_eq]
          at hEnd
        rcases hEnd with rfl | hSlash
        · cases hRooted
        · rcases List.getLast?_eq_some_iff.mp hSlash with
            ⟨chars, hChars⟩
          have hPath : path = String.ofList chars ++ "/" := by
            apply String.toList_injective
            simp [hChars]
          refine ⟨Path.names (String.ofList chars), ?_, ?_⟩
          · rw [hPath, Path.names_append_slash,
              Path.names_of_not_mem hText]
          · intro links
            have hNames :=
              Path.names_append_slash (String.ofList chars) ""
            rw [String.append_empty, ← hPath] at hNames
            rw [hNames]
            exact reach_append_void rfl links _
    · refine ⟨Path.names path, ?_, fun _ => rfl⟩
      rw [Path.names_append_slash, Path.names_of_not_mem hText]
  rcases hNames with ⟨front, hNames, hSame⟩
  rw [hNames] at hReach
  rw [hSame]
  exact exists_reach_of_append hReach

end Disk

end SymbolAtlas

------------------------------------------------------------
-- Patterns
------------------------------------------------------------

namespace SymbolAtlas

/- Items that come to nothing may be left out. -/
theorem filter_flatMap_of_dies
    {α β : Type}
    {items : List α}
    {f : α → List β}
    {kept : β → Bool}
    {alive : α → Bool}
    (hDies :
      ∀ item ∈ items,
        alive item = false → (f item).filter kept = []) :
    (items.flatMap f).filter kept =
      (items.filter alive).flatMap fun item =>
        (f item).filter kept := by
  induction items with
  | nil => rfl
  | cons item rest ih =>
      have hRest := ih fun other hOther =>
        hDies other (List.mem_cons_of_mem _ hOther)
      rw [List.flatMap_cons, List.filter_append, hRest]
      cases hAlive : alive item with
      | true => rw [List.filter_cons_of_pos hAlive]; rfl
      | false =>
          rw [List.filter_cons_of_neg (by simp [hAlive]),
            hDies item List.mem_cons_self hAlive]
          rfl

namespace Disk

variable {place : Place} {d e : Disk}

theorem Twins.mem_namesAt
    (hTwins : Twins place d e)
    {directory name : String}
    (hMem : name ∈ d.namesAt directory)
    (hDirectory :
      d.isDirectory (Path.child directory name) = true) :
    name ∈ e.namesAt directory := by
  rcases isDirectory_iff_stat.mp hDirectory with ⟨mtime, hStat⟩
  exact hTwins.toSameOutside.mem_namesAt hTwins.tree
    (hTwins.sound.isName_of_mem_namesAt hMem) hMem hStat
    (.inl rfl)

/- The directories that are listed are the same. -/
theorem Twins.filter_namesAt_perm
    (hTwins : Twins place d e)
    (directory : String) :
    ((d.namesAt directory).filter fun name =>
        d.isDirectory (Path.child directory name)).Perm
      ((e.namesAt directory).filter fun name =>
        d.isDirectory (Path.child directory name)) := by
  have hSame := hTwins.toSameOutside.isDirectory_eq
  apply (List.perm_ext_iff_of_nodup
    ((hTwins.sound.nodup_namesAt directory).filter _)
    ((hTwins.soundToo.nodup_namesAt directory).filter _)).mpr
  intro name
  rw [List.mem_filter, List.mem_filter]
  constructor
  · rintro ⟨hMem, hDirectory⟩
    exact ⟨hTwins.mem_namesAt hMem hDirectory, hDirectory⟩
  · rintro ⟨hMem, hDirectory⟩
    refine ⟨hTwins.symm.mem_namesAt hMem ?_, hDirectory⟩
    rw [hSame]
    exact hDirectory

end Disk

namespace Glob

variable {place : Place} {d e : Disk}

theorem namesIn_eq
    (d : Disk)
    {directory : String}
    (hSome : directory ≠ "")
    (onlyDirs : Bool) :
    namesIn d directory onlyDirs =
      if onlyDirs then
        (d.namesAt directory).filter fun name =>
          d.isDirectory (Path.child directory name)
      else d.namesAt directory := by
  unfold namesIn Disk.namesAt
  dsimp only
  rw [if_neg (by simpa using hSome)]
  cases d.list directory with
  | error fault => cases onlyDirs <;> rfl
  | ok names => rfl

/- The directories that meet a pattern in a directory. -/
theorem filter_matching
    (d : Disk)
    {directory : String}
    (hSome : directory ≠ "")
    (pattern : List Char)
    (onlyDirs : Bool) :
    ((matching d directory pattern onlyDirs).filter fun name =>
        d.isDirectory (Path.child directory name)) =
      ((d.namesAt directory).filter fun name =>
        d.isDirectory (Path.child directory name)).filter
          fun name =>
            (isHidden pattern || !isHidden name.toList) &&
              meets pattern name := by
  unfold matching
  dsimp only
  rw [namesIn_eq d hSome]
  cases onlyDirs <;> cases isHidden pattern <;>
    simp [List.filter_filter, Bool.and_comm, Bool.and_left_comm,
      Bool.and_assoc]

theorem mem_namesAt_of_mem_matching
    {directory text : String}
    (hSome : directory ≠ "")
    {pattern : List Char}
    {onlyDirs : Bool}
    (hText : text ∈ matching d directory pattern onlyDirs) :
    text ∈ d.namesAt directory := by
  have hNames : text ∈ namesIn d directory onlyDirs := by
    unfold matching at hText
    dsimp only at hText
    split at hText
    · exact (List.mem_filter.mp hText).1
    · exact (List.mem_filter.mp (List.mem_filter.mp hText).1).1
  rw [namesIn_eq d hSome] at hNames
  split at hNames
  · exact (List.mem_filter.mp hNames).1
  · exact hNames

theorem eq_of_mem_literal
    {directory text : String}
    {name : List Char}
    (hText : text ∈ literal d directory name) :
    text = String.ofList name := by
  unfold literal at hText
  dsimp only at hText
  split at hText <;> split at hText <;> simp_all

/- What is written out and a directory is on both disks. -/
theorem filter_literal_of_twins
    (hTwins : Disk.Twins place d e)
    {directory : String}
    (hRooted : Path.isRooted directory = true)
    (name : List Char) :
    ((literal e directory name).filter fun name =>
        d.isDirectory (Path.child directory name)) =
      (literal d directory name).filter fun name =>
        d.isDirectory (Path.child directory name) := by
  have hSame := hTwins.toSameOutside.isDirectory_eq
  have hSome : directory.isEmpty = false := by
    cases hEmpty : directory.isEmpty with
    | false => rfl
    | true =>
        rw [String.isEmpty_iff] at hEmpty
        rw [hEmpty] at hRooted
        cases hRooted
  unfold literal
  simp only [hSame, hSome, Bool.false_eq_true, if_false]
  split
  · rfl
  cases hDirectory :
      d.isDirectory
        (Path.child directory (String.ofList name)) with
  | false => split <;> split <;> simp [hDirectory]
  | true =>
      have hChild :=
        Path.isRooted_child hRooted (String.ofList name)
      rw [Disk.isPresent_of_isDirectory hChild hDirectory,
        Disk.isPresent_of_isDirectory hChild
          (by rw [hSame]; exact hDirectory)]

/- What a directory holds for a name of a pattern. -/
def stepsIn
    (d : Disk)
    (name : List Char)
    (onlyDirs : Bool)
    (directory : String) : List String :=
  (if hasMagic name then matching d directory name onlyDirs
    else literal d directory name).map (Path.child directory)

variable {name : List Char} {onlyDirs : Bool}
variable {directory : String}

/- A directory holds the same directories on both disks. -/
theorem filter_stepsIn_perm
    (hTwins : Disk.Twins place d e)
    (hRooted : Path.isRooted directory = true) :
    ((stepsIn d name onlyDirs directory).filter
        d.isDirectory).Perm
      ((stepsIn e name onlyDirs directory).filter
        d.isDirectory) := by
  have hSame := hTwins.toSameOutside.isDirectory_eq
  have hSome : directory ≠ "" := by
    rintro rfl
    cases hRooted
  unfold stepsIn
  rw [List.filter_map, List.filter_map]
  apply List.Perm.map
  change (List.filter
      (fun name => d.isDirectory (Path.child directory name))
      _).Perm
    (List.filter
      (fun name => d.isDirectory (Path.child directory name)) _)
  split
  · have hOther := filter_matching e hSome name onlyDirs
    rw [hSame] at hOther
    rw [filter_matching d hSome, hOther]
    exact (hTwins.filter_namesAt_perm directory).filter _
  · rw [filter_literal_of_twins hTwins hRooted]

/- What is not a directory holds no directory. -/
theorem filter_stepsIn_eq_nil
    (hSound : d.IsSound)
    (hRooted : Path.isRooted directory = true)
    (hName : '/' ∉ name)
    (hNot : d.isDirectory directory = false) :
    (stepsIn d name onlyDirs directory).filter d.isDirectory =
      [] := by
  have hSome : directory ≠ "" := by
    rintro rfl
    cases hRooted
  rw [List.filter_eq_nil_iff]
  intro path hPath hDirectory
  rcases List.mem_map.mp hPath with ⟨text, hText, rfl⟩
  have hSlash : '/' ∉ text.toList := by
    split at hText
    · exact (hSound.isName_of_mem_namesAt
        (mem_namesAt_of_mem_matching hSome hText)).2
    · rw [eq_of_mem_literal hText, String.toList_ofList]
      exact hName
  rw [Disk.isDirectory_of_child hRooted hSlash hDirectory] at hNot
  cases hNot

/- The name of a pattern holds no slash. -/
theorem not_mem_split
    (text : List Char) :
    '/' ∉ (split text).2 := by
  intro hMem
  have hTaken := List.mem_takeWhile_imp (List.mem_reverse.mp hMem)
  simp at hTaken

/-
  The directories that meet a rooted pattern are the same. The
  induction is on the slashes of the pattern.
-/
theorem expandFrom_perm_of_twins
    (hTwins : Disk.Twins place d e)
    (fuel : Nat)
    (rest : List Char)
    (onlyDirs : Bool) :
    ((expandFrom d fuel ('/' :: rest) onlyDirs).filter
        d.isDirectory).Perm
      ((expandFrom e fuel ('/' :: rest) onlyDirs).filter
        d.isDirectory) := by
  have hSame := hTwins.toSameOutside.isDirectory_eq
  induction fuel generalizing rest onlyDirs with
  | zero => exact List.Perm.refl _
  | succ fuel ih =>
      rcases split_front rest with ⟨more, hFront⟩
      have hName := not_mem_split ('/' :: rest)
      unfold expandFrom
      rcases hSplit : split ('/' :: rest) with ⟨front, name⟩
      rw [hSplit] at hFront hName
      dsimp only at hFront hName ⊢
      subst hFront
      rw [hSame]
      split
      · -- Without wildcards there is one path, on both or on none.
        have hRooted := Path.isRooted_ofList_cons rest
        cases hDirectory :
            d.isDirectory (String.ofList ('/' :: rest)) with
        | false =>
            rw [List.filter_eq_nil_iff.mpr,
              List.filter_eq_nil_iff.mpr]
            all_goals
              intro path hPath
              split at hPath
              all_goals simp_all
        | true =>
            rw [Disk.isPresent_of_isDirectory hRooted hDirectory,
              Disk.isPresent_of_isDirectory hRooted
                (by rw [hSame]; exact hDirectory)]
      · have hSome : ¬ ('/' :: more).isEmpty = true :=
          Bool.false_ne_true
        rw [if_neg hSome, if_neg hSome]
        have hDirectories (disk : Disk) :
            ∀ directory ∈
              (if ('/' :: more) != ('/' :: rest) &&
                  hasMagic ('/' :: more) then
                expandFrom disk fuel ('/' :: more) true
              else [String.ofList ('/' :: more)]),
              Path.isRooted directory = true := by
          intro directory hDirectory
          split at hDirectory
          · exact isRooted_of_mem_expandFrom hDirectory
          · rw [List.mem_singleton.mp hDirectory]
            exact Path.isRooted_ofList_cons more
        change (List.filter d.isDirectory
            (List.flatMap (stepsIn d name onlyDirs) _)).Perm
          (List.filter d.isDirectory
            (List.flatMap (stepsIn e name onlyDirs) _))
        rw [filter_flatMap_of_dies fun directory hMem hNot =>
            filter_stepsIn_eq_nil hTwins.sound
              (hDirectories d directory hMem) hName hNot,
          filter_flatMap_of_dies fun directory hMem hNot => ?_]
        · refine List.Perm.flatMap ?_ fun directory hMem => ?_
          · split
            · exact ih more true
            · exact List.Perm.refl _
          · exact filter_stepsIn_perm hTwins
              (hDirectories d directory (List.mem_filter.mp hMem).1)
        · have hNone :
              (stepsIn e name onlyDirs directory).filter
                e.isDirectory = [] :=
            filter_stepsIn_eq_nil hTwins.soundToo
              (hDirectories e directory hMem) hName
              (by rw [hSame]; exact hNot)
          rw [hSame] at hNone
          exact hNone

end Glob

namespace Search

variable {place : Place} {d e : Disk}

/- A rooted base stands for the same directories. -/
theorem directories_of_twins
    (hTwins : Disk.Twins place d e)
    {base : String}
    (hRooted : Path.isRooted base = true) :
    directories e base = directories d base := by
  rcases Path.isRooted_iff.mp hRooted with ⟨rest, hBase⟩
  have hPerm :
      ((Glob.expand e base).filter d.isDirectory).Perm
        ((Glob.expand d base).filter d.isDirectory) := by
    unfold Glob.expand
    rw [hBase]
    exact (Glob.expandFrom_perm_of_twins hTwins _ rest false).symm
  unfold directories
  simp only [hTwins.toSameOutside.isDirectory_eq,
    mergeSort_eq_of_perm hPerm]

theorem foldlM_congr
    {ε α β : Type}
    {f g : β → α → Except ε β}
    {items : List α}
    (hSame :
      ∀ item ∈ items, ∀ state, f state item = g state item)
    (start : β) :
    items.foldlM f start = items.foldlM g start := by
  induction items generalizing start with
  | nil => rfl
  | cons item rest ih =>
      rw [List.foldlM_cons, List.foldlM_cons,
        hSame item List.mem_cons_self]
      congr 1
      funext next
      exact ih (fun other hOther =>
        hSame other (List.mem_cons_of_mem _ hOther)) next

/- What an attempt gives is all that the next one depends on. -/
theorem bind_congr_of_ok
    {ε α β : Type}
    {result : Except ε α}
    {f g : α → Except ε β}
    (hSame : ∀ value, result = .ok value → f value = g value) :
    (result >>= f) = (result >>= g) := by
  cases result with
  | error error => rfl
  | ok value => exact hSame value rfl

/- Searches at rooted locations have the same plan. -/
theorem plan_of_twins
    (hTwins : Disk.Twins place d e)
    {locations : List String}
    (hSome : locations ≠ [])
    (hRooted :
      ∀ location ∈ locations, Path.isRooted location = true)
    (requests : List Request) :
    plan e locations requests = plan d locations requests := by
  refine foldlM_congr (fun request _ start => ?_) _
  refine bind_congr_of_ok fun readings hSplits => ?_
  refine foldlM_congr (fun split hSplit before => ?_) _
  have hBase :=
    isRooted_of_mem_splits hSome hRooted hSplits hSplit
  have hNot : split.base.isEmpty = false := by
    cases hEmpty : split.base.isEmpty with
    | false => rfl
    | true =>
        rw [String.isEmpty_iff] at hEmpty
        rw [hEmpty] at hBase
        cases hBase
  unfold addSplit
  simp only [hNot, Bool.false_eq_true, if_false,
    directories_of_twins hTwins hBase]

end Search

end SymbolAtlas
