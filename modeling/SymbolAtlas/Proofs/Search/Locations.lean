import Mathlib.Data.List.Infix
import SymbolAtlas.Proofs.Search.Spelling

/-
  Locations that are meant literally.

  Brackets of a location are escaped before it is put in front of
  a mask, and are then expanded again against the disk. Each
  escaped name is met by itself alone, so a location without
  other wildcards stands for one directory, which is the one that
  it leads to.

  Key definitions:
    * `Search.ListsBrackets`
  Key theorems:
    * `Glob.matching_escaped`
    * `Glob.exists_expandFrom_escaped`
    * `Search.exists_directories_of_location`
    * `Search.plan_of_location`
-/

------------------------------------------------------------
-- Cutting Escaped Texts
------------------------------------------------------------

namespace SymbolAtlas

namespace Glob

open SymbolAtlas.Path (slashes toList_slashes Spelled)

variable {last : String}

/- A first name is cut off the slashes in front of it. -/
theorem split_first
    (count : Nat)
    (hSlash : '/' ∉ last.toList) :
    split (slashes count ++ last).toList =
      ((slashes count).toList, last.toList) := by
  cases count with
  | zero =>
      have hKept :
          last.toList.reverse.takeWhile (· != '/') =
            last.toList.reverse := by
        rw [List.takeWhile_eq_self_iff]
        intro c hC
        rw [bne_iff_ne]
        rintro rfl
        exact hSlash (List.mem_reverse.mp hC)
      have hText : slashes 0 ++ last = last :=
        String.empty_append
      unfold split
      rw [hText, hKept]
      simp
  | succ count =>
      have hChars :
          (slashes (count + 1) ++ last).toList =
            List.replicate count '/' ++ '/' :: last.toList := by
        simp [List.replicate_succ']
      have hBare :
          ((List.replicate count '/').reverse.dropWhile
            (· == '/')).reverse = [] := by
        simp
      rw [hChars, split_stretch hSlash, hBare,
        if_pos List.isEmpty_nil, toList_slashes,
        List.replicate_succ']

/- A next name is cut off without the slashes in front of it. -/
theorem split_next
    {front : String}
    (count : Nat)
    (hFront : Spelled front)
    (hSlash : '/' ∉ last.toList) :
    split (front ++ slashes (count + 1) ++ last).toList =
      (front.toList, last.toList) := by
  have hChars :
      (front ++ slashes (count + 1) ++ last).toList =
        (front.toList ++ List.replicate count '/') ++
          '/' :: last.toList := by
    simp [List.replicate_succ']
  have hBare :
      ((front.toList ++ List.replicate count '/').reverse.dropWhile
          (· == '/')).reverse = front.toList := by
    rw [List.reverse_append, List.dropWhile_append_of_pos
      (by simp), List.reverse_eq_iff]
    apply List.dropWhile_eq_self_iff.mpr
    intro hLength hStart
    apply hFront.getLast?_ne
    rw [← List.head?_reverse, List.head?_eq_getElem?]
    simpa [List.getElem?_eq_getElem hLength] using hStart
  rw [hChars, split_stretch hSlash, hBare,
    if_neg (by simpa using hFront.ne_empty)]

end Glob

end SymbolAtlas

------------------------------------------------------------
-- Names Met by Themselves
------------------------------------------------------------

namespace SymbolAtlas

namespace Glob

variable {d : Disk} {directory name : String} {onlyDirs : Bool}

/- The text under which a directory is listed. -/
def opened (directory : String) : String :=
  if directory.isEmpty then "." else directory

/- The names that meet a pattern are some of those listed. -/
theorem matching_eq_filter
    (d : Disk)
    (directory : String)
    (pattern : List Char)
    (onlyDirs : Bool) :
    matching d directory pattern onlyDirs =
      (d.namesAt (opened directory)).filter fun name =>
        (!onlyDirs ||
            d.isDirectory (Path.child (opened directory) name)) &&
          ((isHidden pattern || !isHidden name.toList) &&
            meets pattern name) := by
  have hOpened : opened directory ≠ "" := by
    unfold opened
    split
    · decide
    · next hSome => simpa using hSome
  have hNames :
      namesIn d directory onlyDirs =
        namesIn d (opened directory) onlyDirs := by
    unfold namesIn
    dsimp only
    rw [if_neg (show ¬ (opened directory).isEmpty = true by
      simpa using hOpened)]
    rfl
  unfold matching
  dsimp only
  rw [hNames, namesIn_eq d hOpened]
  cases onlyDirs <;> cases isHidden pattern <;>
    simp [List.filter_filter, Bool.and_comm, Bool.and_left_comm,
      Bool.and_assoc]

theorem meets_escaped_iff
    (hChars : ∀ c ∈ name.toList, c ∉ ['*', '?'])
    {text : String} :
    meets (Path.escapeBrackets name).toList text = true ↔
      text = name := by
  unfold meets items
  rw [Path.toList_escapeBrackets,
    itemsFrom_escaped hChars (Nat.lt_succ_self _),
    acceptsAll_escaped_iff]
  exact String.toList_inj

theorem isHidden_escapeBrackets
    (name : String) :
    isHidden (Path.escapeBrackets name).toList =
      isHidden name.toList := by
  rw [Path.toList_escapeBrackets]
  unfold isHidden
  cases name.toList with
  | nil => rfl
  | cons c rest =>
      rw [List.flatMap_cons]
      unfold Path.escapeBracket
      split
      · next hBracket => grind [Path.isBracket]
      · rfl

/- An escaped name is met in a directory by itself alone. -/
theorem matching_escaped
    (hSound : d.IsSound)
    (hChars : ∀ c ∈ name.toList, c ∉ ['*', '?'])
    (hMem : name ∈ d.namesAt (opened directory))
    (hDirectory :
      d.isDirectory (Path.child (opened directory) name) = true) :
    matching d directory (Path.escapeBrackets name).toList
      onlyDirs = [name] := by
  rw [matching_eq_filter]
  have hNodup := hSound.nodup_namesAt (opened directory)
  apply List.perm_singleton.mp
  rw [List.perm_ext_iff_of_nodup (hNodup.filter _)
    (List.nodup_singleton name)]
  intro text
  rw [List.mem_filter, List.mem_singleton]
  simp only [Bool.and_eq_true, meets_escaped_iff hChars]
  constructor
  · exact fun hText => hText.2.2.2
  · rintro rfl
    refine ⟨hMem, ?_, ?_, rfl⟩
    · rw [hDirectory, Bool.or_true]
    · rw [isHidden_escapeBrackets, Bool.or_not_self]

end Glob

end SymbolAtlas

------------------------------------------------------------
-- Directories of Bracketed Names
------------------------------------------------------------

namespace SymbolAtlas

namespace Disk

variable {d : Disk} {place : Place}

/- A name with a bracket is neither void nor two dots. -/
theorem isName_of_bracket
    {name : String}
    (hSlash : '/' ∉ name.toList)
    (hBracket : name.toList.any Path.isBracket = true) :
    IsName name := by
  have hNot :
      ∀ other : String,
        other.toList.any Path.isBracket = false → name ≠ other := by
    rintro other hPlain rfl
    rw [hPlain] at hBracket
    cases hBracket
  refine ⟨⟨?_, hNot ".." (by decide)⟩, hSlash⟩
  simp [Route.isVoid, hNot "" (by decide), hNot "." (by decide)]

/- What a directory lies in is a directory. -/
theorem HasDirectory.of_slashes
    {front : String}
    {count : Nat}
    {last : String}
    (hHas :
      d.HasDirectory (front ++ Path.slashes (count + 1) ++ last)
        place)
    (hSome : front ≠ "") :
    ∃ above, d.HasDirectory front above := by
  have hStart :
      d.startOf (front ++ Path.slashes (count + 1) ++ last) =
        d.startOf front := by
    rw [startOf_eq, startOf_eq, String.append_assoc,
      Path.isRooted_append_of_ne_empty hSome]
  have hReached := hHas.reached
  rw [hStart, Path.names_ofText_slashes] at hReached
  rcases exists_reach_of_append hReached with ⟨above, hAbove⟩
  refine ⟨above, ?_, hAbove⟩
  rw [← hStart]
  exact hHas.start

end Disk

end SymbolAtlas

------------------------------------------------------------
-- Expanding Escaped Texts
------------------------------------------------------------

namespace SymbolAtlas

namespace Search

/-
  The directories of the names with brackets can be listed, under
  the text in front of the name.
-/
def ListsBrackets (d : Disk) (text : String) : Prop :=
  ∀ front name back, Path.Stands text front name back →
    name.toList.any Path.isBracket = true →
      ∃ names, d.list (Glob.opened front) = .ok names

theorem ListsBrackets.of_append
    {d : Disk}
    {text more : String}
    (hLists : ListsBrackets d (text ++ more))
    (hMore : more = "" ∨ Path.isRooted more = true) :
    ListsBrackets d text :=
  fun front name back hStands =>
    hLists front name (back ++ more) (hStands.append hMore)

end Search

namespace Glob

open SymbolAtlas.Path (Echoes Spelled child escapeBrackets isBracket slashes)
open SymbolAtlas.Search (ListsBrackets)

variable {d : Disk} {place : Place} {directory name : String}
  {onlyDirs : Bool}

theorem opened_of_ne_empty
    (hSome : directory ≠ "") :
    opened directory = directory :=
  if_neg (by simpa using hSome)

/- An escaped name leads from a directory to one text. -/
theorem stepsIn_escaped
    (hSound : d.IsSound)
    (hChars : ∀ c ∈ name.toList, c ∉ ['*', '?'])
    (hSlash : '/' ∉ name.toList)
    (hSome : directory ≠ "")
    (hHas : d.HasDirectory (child directory name) place)
    (hList :
      name.toList.any isBracket = true →
        ∃ names, d.list directory = .ok names) :
    stepsIn d (escapeBrackets name).toList onlyDirs directory =
      [child directory name] := by
  have hChild := Path.child_ne_empty_of_directory hSlash hSome
  unfold stepsIn
  rw [Path.hasMagic_escapeBrackets hChars]
  split
  · next hBracket =>
      rcases hList hBracket with ⟨names, hNames⟩
      have hMem :=
        hHas.mem_namesAt (Disk.isName_of_bracket hSlash hBracket)
          hSome hNames
      rw [matching_escaped hSound hChars]
      · rfl
      · rw [opened_of_ne_empty hSome]
        exact hMem
      · rw [opened_of_ne_empty hSome]
        exact hHas.isDirectory hChild
  · next hPlain =>
      rw [Path.escapeBrackets_of_no_bracket (by simpa using hPlain)]
      unfold literal
      rw [String.ofList_toList]
      dsimp only
      split
      · next hEmpty =>
          obtain rfl : name = "" := by simpa using hEmpty
          have hSelf :=
            hHas.of_alike (Path.alike_child_empty hSome)
          rw [if_pos (hSelf.isDirectory hSome)]
          rfl
      · have hHere : directory.isEmpty = false := by
          simpa using hSome
        rw [hHere, if_neg Bool.false_ne_true,
          if_pos (hHas.isPresent hChild)]
        rfl

/- A pattern is expanded from what its front part stands for. -/
theorem expandFrom_of_split
    {pattern front name : String}
    (hMagic : hasMagic pattern.toList = true)
    (hSplit : split pattern.toList = (front.toList, name.toList))
    (hFront : front ≠ "")
    (hShort : front ≠ pattern)
    (fuel : Nat) :
    expandFrom d (fuel + 1) pattern.toList onlyDirs =
      (if hasMagic front.toList then
          expandFrom d fuel front.toList true
        else [front]).flatMap (stepsIn d name.toList onlyDirs) := by
  have hOther : (front.toList != pattern.toList) = true := by
    rw [bne_iff_ne]
    exact fun hSame => hShort (String.toList_injective hSame)
  rw [expandFrom, hSplit]
  dsimp only
  rw [hMagic, hOther, String.ofList_toList]
  simp only [Bool.not_true, Bool.false_eq_true, if_false,
    Bool.true_and]
  rw [if_neg (by simpa using hFront)]
  rfl

/- A front part stands for one text, if its brackets do. -/
theorem exists_directories_of_front
    {front : String}
    {fuel : Nat}
    (hFront : Spelled front)
    (hChars : ∀ c ∈ front.toList, c ∉ ['*', '?'])
    (hExpand :
      front.toList.any isBracket = true →
        ∃ other, Echoes other front ∧
          expandFrom d fuel (escapeBrackets front).toList true =
            [other]) :
    ∃ other, Echoes other front ∧
      (if hasMagic (escapeBrackets front).toList then
          expandFrom d fuel (escapeBrackets front).toList true
        else [escapeBrackets front]) = [other] := by
  rw [Path.hasMagic_escapeBrackets hChars]
  split
  · next hInside => exact hExpand hInside
  · next hPlain =>
      refine ⟨front, hFront.echoes, ?_⟩
      rw [Path.escapeBrackets_of_no_bracket (by simpa using hPlain)]

/-
  The last name of an escaped text is met behind the one text
  that its front part stands for.
-/
theorem exists_expandFrom_next
    (hSound : d.IsSound)
    {front last : String}
    {count fuel : Nat}
    (hFront : Spelled front)
    (hSlash : '/' ∉ last.toList)
    (hChars :
      ∀ c ∈ (front ++ slashes (count + 1) ++ last).toList,
        c ∉ ['*', '?'])
    (hBracket :
      (front ++ slashes (count + 1) ++ last).toList.any isBracket =
        true)
    (hHas :
      d.HasDirectory (front ++ slashes (count + 1) ++ last) place)
    (hList :
      last.toList.any isBracket = true →
        ∃ names, d.list (front ++ slashes (count + 1)) = .ok names)
    (hExpand :
      front.toList.any isBracket = true →
        ∃ other, Echoes other front ∧
          expandFrom d fuel (escapeBrackets front).toList true =
            [other]) :
    ∃ other, Echoes other front ∧
      expandFrom d (fuel + 1)
          (escapeBrackets
            (front ++ slashes (count + 1) ++ last)).toList
          onlyDirs =
        [child other last] := by
  have hPattern :
      escapeBrackets (front ++ slashes (count + 1) ++ last) =
        escapeBrackets front ++ slashes (count + 1) ++
          escapeBrackets last := by
    rw [Path.escapeBrackets_append, Path.escapeBrackets_append,
      Path.escapeBrackets_slashes]
  have hMagic := Path.hasMagic_escapeBrackets hChars
  rw [hBracket, hPattern] at hMagic
  have hShort :
      escapeBrackets front ≠
        escapeBrackets front ++ slashes (count + 1) ++
          escapeBrackets last := by
    intro hSame
    have hLength := congrArg String.length hSame
    simp [slashes] at hLength
    omega
  rw [Path.forall_mem_append, Path.forall_mem_append] at hChars
  rcases hChars with ⟨⟨hFrontChars, -⟩, hLastChars⟩
  rcases exists_directories_of_front hFront hFrontChars hExpand with
    ⟨other, hEchoes, hDirectories⟩
  refine ⟨other, hEchoes, ?_⟩
  rw [hPattern, expandFrom_of_split hMagic
      (split_next count hFront.escape
        (Path.not_mem_escapeBrackets hSlash))
      (Path.escapeBrackets_ne_empty hFront.ne_empty) hShort,
    hDirectories, List.flatMap_singleton]
  have hChild :=
    hHas.of_alike
      (hEchoes.child hFront.ne_empty hSlash count).symm
  apply stepsIn_escaped hSound hLastChars hSlash hEchoes.nonempty
    hChild
  intro hInside
  rcases hHas.of_slashes hFront.ne_empty with ⟨above, hAbove⟩
  rcases hList hInside with ⟨names, hNames⟩
  have hSlashes := Path.alike_slashes hFront.ne_empty count
  have hSome : front ++ slashes (count + 1) ≠ "" := by
    simp [hFront.ne_empty]
  rw [hAbove.list_of_alike hSlashes.symm hFront.ne_empty hSome,
    ← hAbove.list_of_alike hEchoes.alike.symm hFront.ne_empty
      hEchoes.nonempty] at hNames
  exact ⟨names, hNames⟩

/- A pattern without slashes is looked for here. -/
theorem expandFrom_of_no_slash
    {pattern : String}
    (hMagic : hasMagic pattern.toList = true)
    (hSlash : '/' ∉ pattern.toList)
    (fuel : Nat) :
    expandFrom d (fuel + 1) pattern.toList onlyDirs =
      matching d "" pattern.toList onlyDirs := by
  have hSplit := split_first 0 hSlash
  have hNone : slashes 0 ++ pattern = pattern :=
    String.empty_append
  rw [hNone] at hSplit
  rw [expandFrom, hSplit]
  dsimp only
  rw [hMagic]
  simp

/- A name alone is met in the working directory. -/
theorem expandFrom_name
    (hSound : d.IsSound)
    (hChars : ∀ c ∈ name.toList, c ∉ ['*', '?'])
    (hSlash : '/' ∉ name.toList)
    (hBracket : name.toList.any isBracket = true)
    (hHas : d.HasDirectory name place)
    (hLists : ListsBrackets d name)
    (fuel : Nat) :
    expandFrom d (fuel + 1) (escapeBrackets name).toList onlyDirs =
      [name] := by
  have hMagic := Path.hasMagic_escapeBrackets hChars
  rw [hBracket] at hMagic
  have hName := Disk.isName_of_bracket hSlash hBracket
  have hHere : Path.Alike name (child "." name) := by
    refine ⟨?_, ?_⟩
    · rw [Path.isRooted_child_of_isName (by decide) hName,
        Path.isRooted_of_not_mem hSlash]
      rfl
    · rw [Path.names_ofText_child hSlash]
      rfl
  rcases hLists "" name "" ⟨by simp, hSlash, .inl rfl, .inl rfl⟩
      hBracket with ⟨names, hNames⟩
  have hChild := hHas.of_alike hHere
  rw [expandFrom_of_no_slash hMagic
    (Path.not_mem_escapeBrackets hSlash)]
  exact matching_escaped hSound hChars
    (hChild.mem_namesAt hName (by decide) hNames)
    (hChild.isDirectory (Path.child_ne_empty "." hName))

/- A name behind slashes is met at the root. -/
theorem expandFrom_slashes
    (hSound : d.IsSound)
    (count : Nat)
    (hChars : ∀ c ∈ name.toList, c ∉ ['*', '?'])
    (hSlash : '/' ∉ name.toList)
    (hBracket : name.toList.any isBracket = true)
    (hHas : d.HasDirectory (slashes (count + 1) ++ name) place)
    (hLists : ListsBrackets d (slashes (count + 1) ++ name))
    (fuel : Nat) :
    expandFrom d (fuel + 1)
        (slashes (count + 1) ++ escapeBrackets name).toList onlyDirs =
      [slashes (count + 1) ++ name] := by
  have hMagic := Path.hasMagic_escapeBrackets hChars
  rw [hBracket] at hMagic
  have hSome : slashes (count + 1) ≠ "" := by
    intro hEmpty
    simpa [slashes] using congrArg String.length hEmpty
  have hChild :
      child (slashes (count + 1)) name =
        slashes (count + 1) ++ name := by
    have hText : slashes (count + 1) = slashes count ++ "/" := by
      apply String.toList_injective
      simp [List.replicate_succ']
    rw [hText]
    exact Path.child_of_slash _ hSlash
  have hPlain : hasMagic (slashes (count + 1)).toList = false := by
    apply hasMagic_of_slashes
    rw [Path.toList_slashes]
    exact fun c hC => List.eq_of_mem_replicate hC
  have hWhole :
      hasMagic (slashes (count + 1) ++ escapeBrackets name).toList =
        true := by
    unfold hasMagic at hMagic ⊢
    rw [String.toList_append, List.any_append, hMagic, Bool.or_true]
  have hShort :
      slashes (count + 1) ≠
        slashes (count + 1) ++ escapeBrackets name := by
    intro hSame
    have hLength := congrArg String.length hSame
    have hNone : escapeBrackets name = "" := by
      simpa using hLength
    rw [hNone] at hMagic
    cases hMagic
  rw [← hChild] at hHas
  rw [expandFrom_of_split hWhole
      (split_first (count + 1) (Path.not_mem_escapeBrackets hSlash))
      hSome hShort,
    hPlain, if_neg Bool.false_ne_true, List.flatMap_singleton,
    ← hChild]
  apply stepsIn_escaped hSound hChars hSlash hSome hHas
  intro hInside
  have hStands := Path.stands_last "" count hSlash
  rw [String.empty_append] at hStands
  rcases hLists _ _ _ hStands hInside with ⟨names, hNames⟩
  rw [opened_of_ne_empty hSome] at hNames
  exact ⟨names, hNames⟩

/- A first name is met behind the slashes in front of it. -/
theorem expandFrom_first
    (hSound : d.IsSound)
    (count : Nat)
    (hChars : ∀ c ∈ name.toList, c ∉ ['*', '?'])
    (hSlash : '/' ∉ name.toList)
    (hBracket : name.toList.any isBracket = true)
    (hHas : d.HasDirectory (slashes count ++ name) place)
    (hLists : ListsBrackets d (slashes count ++ name))
    (fuel : Nat) :
    expandFrom d (fuel + 1)
        (escapeBrackets (slashes count ++ name)).toList onlyDirs =
      [slashes count ++ name] := by
  rw [Path.escapeBrackets_append, Path.escapeBrackets_slashes]
  cases count with
  | zero =>
      have hNone (text : String) : slashes 0 ++ text = text :=
        String.empty_append
      rw [hNone] at hHas hLists
      rw [hNone, hNone]
      exact expandFrom_name hSound hChars hSlash hBracket hHas
        hLists fuel
  | succ count =>
      exact expandFrom_slashes hSound count hChars hSlash hBracket
        hHas hLists fuel

/-
  An escaped text is expanded to the one text that it stands
  for. The induction is on its names.
-/
theorem exists_expandFrom_escaped
    (hSound : d.IsSound)
    {text : String}
    (hSpelled : Spelled text)
    (hChars : ∀ c ∈ text.toList, c ∉ ['*', '?'])
    (hBracket : text.toList.any isBracket = true)
    (hHas : d.HasDirectory text place)
    (hLists : ListsBrackets d text)
    {fuel : Nat}
    (hFuel : (escapeBrackets text).length < fuel) :
    ∃ other, Echoes other text ∧
      expandFrom d fuel (escapeBrackets text).toList onlyDirs =
        [other] := by
  obtain ⟨left, rfl⟩ : ∃ left, fuel = left + 1 :=
    ⟨fuel - 1, by omega⟩
  induction hSpelled generalizing left onlyDirs place with
  | @first count last hSlash hLast =>
      refine ⟨_, (Spelled.first count hSlash hLast).echoes, ?_⟩
      rw [Path.forall_mem_append] at hChars
      rw [String.toList_append, List.any_append,
        Path.any_isBracket_slashes, Bool.false_or] at hBracket
      exact expandFrom_first hSound count hChars.2 hSlash hBracket
        hHas hLists left
  | @next front count last hFront hSlash hLast ih =>
      have hFrontLists : ListsBrackets d front := by
        rw [String.append_assoc] at hLists
        exact hLists.of_append
          (.inr (Path.isRooted_append
            (Path.isRooted_slashes count) last))
      have hFrontChars : ∀ c ∈ front.toList, c ∉ ['*', '?'] :=
        (Path.forall_mem_append.mp
          (Path.forall_mem_append.mp hChars).1).1
      have hShorter : (escapeBrackets front).length < left := by
        rw [Path.escapeBrackets_append, Path.escapeBrackets_append,
          Path.escapeBrackets_slashes] at hFuel
        simp [slashes] at hFuel
        omega
      rcases hHas.of_slashes hFront.ne_empty with ⟨above, hAbove⟩
      have hExpand :
          front.toList.any isBracket = true →
            ∃ other, Echoes other front ∧
              expandFrom d left (escapeBrackets front).toList true =
                [other] := by
        intro hInside
        obtain ⟨less, rfl⟩ : ∃ less, left = less + 1 :=
          ⟨left - 1, by omega⟩
        exact ih hFrontChars hInside hAbove hFrontLists less hShorter
      have hList :
          last.toList.any isBracket = true →
            ∃ names,
              d.list (front ++ slashes (count + 1)) = .ok names := by
        intro hInside
        rcases hLists _ _ _ (Path.stands_last front count hSlash)
            hInside with ⟨names, hNames⟩
        rw [opened_of_ne_empty (by simp [hFront.ne_empty])] at hNames
        exact ⟨names, hNames⟩
      rcases exists_expandFrom_next hSound hFront hSlash hChars
          hBracket hHas hList hExpand with
        ⟨other, hEchoes, hWhole⟩
      refine ⟨child other last, ⟨?_, ?_, ?_⟩, hWhole⟩
      · exact hEchoes.child hFront.ne_empty hSlash count
      · exact Path.child_ne_empty_of_directory hSlash
          hEchoes.nonempty
      · rw [Path.child_of_no_slash hSlash hEchoes.nonempty
          hEchoes.ending, String.toList_append]
        exact Path.getLast?_append_of_not_mem hSlash hLast

end Glob

end SymbolAtlas

------------------------------------------------------------
-- One Directory
------------------------------------------------------------

namespace SymbolAtlas

namespace Search

open SymbolAtlas.Path (Alike Spelled escapeBrackets isBracket slashes)

variable {d : Disk} {location : String} {place : Place}

/- A text without separators is not absolute. -/
theorem isAbsolute_of_isSegment
    {text : String}
    (hText : Path.IsSegment text.toList) :
    Path.isAbsolute text = false := by
  have hStart (more : List Char) (hMore : Path.IsSegment more) :
      Path.startsAtRoot more = false := by
    unfold Path.startsAtRoot
    split
    · rfl
    · next c => exact hMore c (by simp)
    · next c other => exact hMore c (by simp)
    · next c colon slash rest =>
        rw [hMore c (by simp), hMore slash (by simp)]
        simp
  have hScheme (more : List Char) (hMore : Path.IsSegment more) :
      Path.startsWithScheme more = false := by
    unfold Path.startsWithScheme
    split
    · rfl
    · next c rest =>
        rw [Bool.and_eq_false_iff]
        right
        rw [← Bool.not_eq_true, List.isPrefixOf_iff_prefix]
        intro hAddress
        have hSlash : '/' ∈ rest :=
          (List.dropWhile_suffix _).subset
            (hAddress.subset (by simp))
        cases hMore '/' (List.mem_cons_of_mem c hSlash)
  unfold Path.isAbsolute
  rw [hStart _ hText, hScheme _ hText]
  rfl

/- A text is cut behind its last slash if no name has stars. -/
theorem splitRecursive_of_location
    (hChars : ∀ c ∈ location.toList, c ∉ ['*', '?'])
    {text : String}
    (hText : Path.IsSegment text.toList) :
    Path.splitRecursive (escapeBrackets location ++ "/" ++ text) =
      ⟨escapeBrackets location ++ "/", text, false⟩ := by
  rcases Path.exists_names_concat (escapeBrackets location) with
    ⟨front, last, -, -, -, hEscaped⟩
  have hStretch :
      Path.stretch (front ++ [last]) =
        (escapeBrackets location ++ "/").toList := by
    rw [Path.stretch_append, String.toList_append, hEscaped]
    simp [Path.stretch]
  have hWhole :
      escapeBrackets location ++ "/" ++ text =
        String.ofList (Path.stretch (front ++ [last]) ++
          text.toList) := by
    rw [hStretch]
    apply String.toList_injective
    simp
  have hStars : '*' ∉ (escapeBrackets location ++ "/").toList := by
    rw [String.toList_append, List.mem_append, not_or,
      Path.mem_escapeBrackets_iff rfl]
    exact ⟨fun hC => hChars _ hC (by decide), by decide⟩
  rw [hWhole, Path.splitRecursive_of_stretch (by simp) hText,
    hStretch, Path.cutAtStars?_of_not_mem hStars,
    String.ofList_toList, String.ofList_toList]

/- A location with brackets is expanded to one text. -/
theorem exists_expand_of_location
    (hSound : d.IsSound)
    (hChars : ∀ c ∈ location.toList, c ∉ ['*', '?'])
    (hBracket : location.toList.any isBracket = true)
    (hSome : location ≠ "")
    (hHas : d.HasDirectory location place)
    (hLists : ListsBrackets d location) :
    ∃ start,
      Glob.expand d (escapeBrackets location ++ "/") = [start] ∧
        Alike start location ∧ start ≠ "" := by
  rcases Path.exists_spelled location with
    ⟨count, rfl | ⟨front, hFront, rfl⟩⟩
  · rw [Path.any_isBracket_slashes] at hBracket
    cases hBracket
  rw [Path.forall_mem_append] at hChars
  rw [String.toList_append, List.any_append,
    Path.any_isBracket_slashes, Bool.or_false] at hBracket
  have hBase :
      front ++ slashes count ++ "/" =
        front ++ slashes (count + 1) ++ "" := by
    apply String.toList_injective
    simp [List.replicate_succ']
  have hAlike := Path.alike_slash hSome
  rw [hBase] at hAlike
  have hThere := hHas.of_alike hAlike.symm
  have hBehind : front ++ slashes (count + 1) ++ "" =
      front ++ slashes (count + 1) := String.append_empty
  have hBaseChars :
      ∀ c ∈ (front ++ slashes (count + 1) ++ "").toList,
        c ∉ ['*', '?'] := by
    rw [hBehind, Path.forall_mem_append]
    refine ⟨hChars.1, fun c hC => ?_⟩
    rw [Path.toList_slashes] at hC
    rw [List.eq_of_mem_replicate hC]
    decide
  have hBaseBracket :
      (front ++ slashes (count + 1) ++ "").toList.any isBracket =
        true := by
    rw [hBehind, String.toList_append, List.any_append, hBracket,
      Bool.true_or]
  have hExpand :
      front.toList.any isBracket = true →
        ∃ other, Path.Echoes other front ∧
          Glob.expandFrom d
              (escapeBrackets
                (front ++ slashes (count + 1) ++ "")).toList.length
              (escapeBrackets front).toList true =
            [other] := by
    intro hInside
    rcases hThere.of_slashes hFront.ne_empty with ⟨above, hAbove⟩
    apply Glob.exists_expandFrom_escaped hSound hFront hChars.1
      hInside hAbove
    · apply hLists.of_append
      cases count with
      | zero => exact .inl rfl
      | succ count => exact .inr (Path.isRooted_slashes count)
    · have hMore : 0 < (slashes (count + 1)).length := by
        simp [slashes]
      rw [hBehind, Path.escapeBrackets_append,
        Path.escapeBrackets_slashes, String.length_toList,
        String.length_append]
      omega
  rcases Glob.exists_expandFrom_next hSound hFront (by simp)
      hBaseChars hBaseBracket hThere (by simp) hExpand with
    ⟨other, hEchoes, hOther⟩
  rw [← Path.escapeBrackets_slash, hBase]
  refine ⟨Path.child other "", ?_, ?_, ?_⟩
  · unfold Glob.expand
    exact hOther
  · exact (hEchoes.child hFront.ne_empty (by simp) count).trans
      hAlike
  · exact Path.child_ne_empty_of_directory (by simp)
      hEchoes.nonempty

/- An escaped location stands for the directory it leads to. -/
theorem exists_directories_of_location
    (hSound : d.IsSound)
    (hChars : ∀ c ∈ location.toList, c ∉ ['*', '?'])
    (hSome : location ≠ "")
    (hHas : d.HasDirectory location place)
    (hLists : ListsBrackets d location) :
    ∃ start,
      directories d (escapeBrackets location ++ "/") = .ok [start] ∧
        Alike start location ∧ start ≠ "" := by
  have hMagic :
      Glob.hasMagic (escapeBrackets location ++ "/").toList =
        location.toList.any isBracket := by
    rw [← Path.hasMagic_escapeBrackets hChars]
    unfold Glob.hasMagic
    rw [String.toList_append, List.any_append]
    exact Bool.or_false _
  unfold directories
  dsimp only
  rw [hMagic]
  split
  · next hBracket =>
      rcases exists_expand_of_location hSound hChars hBracket
          hSome hHas hLists with ⟨start, hExpand, hAlike, hStart⟩
      have hDirectory :=
        (hHas.of_alike hAlike.symm).isDirectory hStart
      refine ⟨start, ?_, hAlike, hStart⟩
      rw [hExpand, List.filter_cons_of_pos hDirectory]
      simp
  · have hAlike := Path.alike_slash hSome
    have hDirectory :=
      (hHas.of_alike hAlike.symm).isDirectory (by simp)
    refine ⟨location ++ "/", ?_, hAlike, by simp⟩
    rw [← Path.escapeBrackets_slash,
      Path.unescapeBrackets_escapeBrackets, if_pos hDirectory]
    rfl

/-
  A location without wildcards other than brackets, which leads
  to a directory, is that directory in the plan.
-/
theorem plan_of_location
    (hSound : d.IsSound)
    (hCwd : d.Grounded d.cwd)
    (hChars : ∀ c ∈ location.toList, c ∉ ['*', '?'])
    (hDirectory : d.isDirectory location = true)
    (hLists : ListsBrackets d location)
    {text : String}
    {mask : Mask}
    (hText : ∀ c ∈ text.toList, Path.isSeparator c = false)
    (hMask : Mask.compile text = .ok mask)
    (kind : EntryKind) :
    (∃ plan start,
      Search.plan d [location] [⟨text, kind⟩] = .ok plan ∧
        plan.entries = [(start, [⟨mask, kind, false⟩])] ∧
        d.locate true start = d.locate true location) ∧
      ∀ path, Path.unescapeBrackets (escapeBrackets path) = path := by
  refine ⟨?_, Path.unescapeBrackets_escapeBrackets⟩
  have hSome : location ≠ "" := by
    rintro rfl
    cases hDirectory
  rcases Disk.exists_hasDirectory hCwd hDirectory with ⟨place, hHas⟩
  rcases exists_directories_of_location hSound hChars hSome hHas
      hLists with ⟨start, hFound, hAlike, hStart⟩
  have hSplits :
      splits [location] ⟨text, kind⟩ =
        .ok [⟨escapeBrackets location ++ "/", text, false⟩] := by
    unfold splits
    rw [isAbsolute_of_isSegment hText, if_neg Bool.false_ne_true,
      List.isEmpty_cons, if_neg Bool.false_ne_true]
    dsimp only
    rw [List.map_cons, splitRecursive_of_location hChars hText]
    rfl
  have hBase :
      (escapeBrackets location ++ "/").isEmpty = false := by
    simp
  have hAdd :
      addSplit d kind .empty
          ⟨escapeBrackets location ++ "/", text, false⟩ =
        .ok (addGoal .empty start ⟨mask, kind, false⟩) := by
    unfold addSplit
    simp only [hBase, Bool.false_eq_true, if_false, hFound, hMask]
    rfl
  refine ⟨addGoal .empty start ⟨mask, kind, false⟩, start, ?_, rfl,
    hHas.locate_of_alike hAlike.symm hSome hStart⟩
  unfold plan addRequest
  simp only [List.foldlM_cons, List.foldlM_nil, hSplits, bind,
    Except.bind, pure, Except.pure, hAdd]

/- Names with brackets, one of them hidden. -/
def bracketed : Disk where
  nodes :=
    [(["w"], .newDirectory),
      (["w", "a[b]"], .newDirectory),
      (["w", "a[b]", ".]c"], .newDirectory)]
  cwd := ["w"]

theorem listsBrackets_bracketed :
    ListsBrackets bracketed "a[b]//../a[b]/.]c" := by
  have hAll :
      ∀ front ∈ "a[b]//../a[b]/.]c".toList.inits,
        front = [] ∨ front.getLast? = some '/' →
          (bracketed.list
            (Glob.opened (String.ofList front))).toOption.isSome =
              true := by
    decide +kernel
  intro front name back hStands hBracket
  have hFront : front.toList ∈ "a[b]//../a[b]/.]c".toList.inits := by
    rw [List.mem_inits, hStands.whole, String.append_assoc,
      String.toList_append]
    exact List.prefix_append _ _
  have hListed := hAll front.toList hFront
    (hStands.before.imp_left fun hEmpty => by rw [hEmpty]; rfl)
  rw [String.ofList_toList] at hListed
  cases hList : bracketed.list (Glob.opened front) with
  | error fault =>
      rw [hList] at hListed
      cases hListed
  | ok names => exact ⟨names, rfl⟩

theorem plan_of_bracketed :
    ∃ mask plan start,
      Search.plan bracketed ["a[b]//../a[b]/.]c"]
          [⟨"*.php", .file⟩] = .ok plan ∧
        plan.entries = [(start, [⟨mask, .file, false⟩])] ∧
        bracketed.locate true start =
          bracketed.locate true "a[b]//../a[b]/.]c" := by
  have hSound : bracketed.IsSound := ⟨by decide, by decide⟩
  have hCwd : bracketed.Grounded bracketed.cwd := by
    apply Disk.grounded_concat (Disk.grounded_nil _)
    rfl
  obtain ⟨mask, hMask⟩ : ∃ mask, Mask.compile "*.php" = .ok mask :=
    ⟨_, rfl⟩
  have hChars :
      "a[b]//../a[b]/.]c".toList.all
        (fun c => c != '*' && c != '?') = true := by
    decide
  have hText : "*.php".toList.all (!Path.isSeparator ·) = true := by
    decide
  have hDirectory :
      bracketed.isDirectory "a[b]//../a[b]/.]c" = true := by
    decide +kernel
  rcases (plan_of_location hSound hCwd
      (fun c hC => by simpa using List.all_eq_true.mp hChars c hC)
      hDirectory listsBrackets_bracketed
      (fun c hC => by simpa using List.all_eq_true.mp hText c hC)
      hMask .file).1 with
    ⟨plan, start, hPlan⟩
  exact ⟨mask, plan, start, hPlan⟩

end Search

end SymbolAtlas
