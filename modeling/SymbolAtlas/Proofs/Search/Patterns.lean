import SymbolAtlas.Proofs.Path.Stretches
import SymbolAtlas.Proofs.Search.Expanding

/-
  What a pattern means, name by name.

  A pattern is expanded at its slashes. Every name of a path that
  comes out fits the name of the pattern that it stands for, and a
  name without wildcards is fit by itself alone. A text whose
  brackets are escaped is fit by itself alone even if it has some.

  Key definitions:
    * `Path.IsNeat`, texts without doubled slashes inside
    * `Glob.Fits`
  Key theorems:
    * `Glob.expandFrom_fits`
    * `Glob.eq_of_fits_escaped`
    * `Search.fits_of_mem_directories`
-/

------------------------------------------------------------
-- Names of a Text
------------------------------------------------------------

namespace SymbolAtlas

namespace Path

/-
  No name is empty but the last one and those in front of a
  text with one or two slashes first.
-/
def IsNeat (text : String) : Prop :=
  "" ∉ (names text).dropLast.drop 2

theorem exists_names_of_isRooted
    {text : String}
    (hRooted : isRooted text = true) :
    ∃ rest, names text = "" :: rest := by
  rcases isRooted_iff.mp hRooted with ⟨rest, hRest⟩
  have hText : text = "/" ++ String.ofList rest := by
    apply String.toList_injective
    simp [hRest]
  exact ⟨_, by rw [hText, names_slash_append]⟩

end Path

end SymbolAtlas

------------------------------------------------------------
-- Cutting a Pattern
------------------------------------------------------------

namespace SymbolAtlas

namespace Glob

/-
  A pattern in front of its last name: slashes alone, or a text
  with one slash behind it.
-/
inductive Cut (pattern front name : String) : Prop
| root (before : String)
    (hFront : front = before ++ "/")
    (hPattern : pattern = front ++ name)
    (hPlain : ∀ c ∈ front.toList, c = '/')
| inner (init : List String) (last : String)
    (hPattern : pattern = front ++ "/" ++ name)
    (hNeat : Path.IsNeat front)
    (hNames : Path.names front = init ++ [last])
    (hLast : last ≠ "")

/- The front part keeps slashes only if it has nothing else. -/
theorem split_stretch
    {before : List Char}
    {last : List Char}
    (hLast : '/' ∉ last) :
    split (before ++ '/' :: last) =
      (if (before.reverse.dropWhile (· == '/')).reverse.isEmpty
        then before ++ ['/']
        else (before.reverse.dropWhile (· == '/')).reverse,
        last) := by
  have hPlain : ∀ c ∈ last.reverse, (c != '/') = true := by
    intro c hC
    rw [bne_iff_ne]
    rintro rfl
    exact hLast (List.mem_reverse.mp hC)
  have hChars :
      (before ++ '/' :: last).reverse =
        last.reverse ++ '/' :: before.reverse := by
    simp
  unfold split
  dsimp only
  rw [take_eq_reverse_dropWhile, hChars,
    List.takeWhile_append_of_pos hPlain,
    List.dropWhile_append_of_pos hPlain]
  simp

/- Slashes that nothing stands between are all in front. -/
theorem eq_slash_of_isNeat
    {text last : String}
    {init : List String}
    (hRooted : Path.isRooted text = true)
    (hNeat : Path.IsNeat text)
    (hNames : Path.names text = init ++ [""] ++ [last])
    {c : Char}
    (hC : c ∈ Path.stretch (init ++ [""])) :
    c = '/' := by
  unfold Path.IsNeat at hNeat
  rw [hNames, List.dropLast_concat] at hNeat
  match init with
  | [] => simpa [Path.stretch] using hC
  | [first] =>
      have hFirst : first = "" := by
        rcases Path.exists_names_of_isRooted hRooted with
          ⟨rest, hRest⟩
        rw [hRest] at hNames
        exact (List.cons.inj hNames).1.symm
      simpa [Path.stretch, hFirst] using hC
  | first :: second :: others => simp at hNeat

/- Behind a name there is no slash to drop. -/
theorem reverse_dropWhile_joined
    (init : List String)
    {name : String}
    (hSlash : '/' ∉ name.toList)
    (hName : name ≠ "") :
    (Path.joined (init ++ [name])).toList ≠ [] ∧
      ((Path.joined (init ++ [name])).toList.reverse.dropWhile
          (· == '/')).reverse =
        (Path.joined (init ++ [name])).toList := by
  rw [Path.toList_joined_concat]
  rcases List.eq_nil_or_concat name.toList with
    hNil | ⟨more, c, hEnd⟩
  · exact absurd (by simpa using hNil) hName
  rw [List.concat_eq_append] at hEnd
  have hC : (c == '/') = false := by
    rw [beq_eq_false_iff_ne]
    rintro rfl
    exact hSlash (by simp [hEnd])
  simp [hEnd, hC]

/- A rooted pattern can be cut behind its last slash. -/
theorem exists_cut
    {pattern : String}
    (hRooted : Path.isRooted pattern = true)
    (hNeat : Path.IsNeat pattern) :
    ∃ front name : String,
      split pattern.toList = (front.toList, name.toList) ∧
        '/' ∉ name.toList ∧ Cut pattern front name := by
  rcases Path.exists_names_concat pattern with
    ⟨names, last, hNames, hSlashes, hLast, hText⟩
  rcases List.eq_nil_or_concat names with rfl | ⟨init, name, rfl⟩
  · rcases Path.isRooted_iff.mp hRooted with ⟨rest, hRest⟩
    have hFirst : last.toList = '/' :: rest := hText.symm.trans hRest
    rw [hFirst] at hLast
    simp at hLast
  rw [List.concat_eq_append] at hNames hText hSlashes
  rw [Path.stretch_concat, List.append_assoc,
    List.singleton_append] at hText
  have hWhole :
      pattern = Path.joined (init ++ [name]) ++ "/" ++ last := by
    apply String.toList_injective
    simp [hText]
  rw [hText, split_stretch hLast]
  by_cases hName : name = ""
  · subst hName
    have hPlain :
        ∀ c ∈ (Path.joined (init ++ [""])).toList ++ ['/'],
          c = '/' := by
      rw [← Path.stretch_concat]
      exact fun _ hC => eq_slash_of_isNeat hRooted hNeat hNames hC
    refine ⟨Path.joined (init ++ [""]) ++ "/", last, ?_, hLast,
      .root _ rfl hWhole ?_⟩
    · rw [if_pos]
      · simp
      · simp only [List.isEmpty_iff, List.reverse_eq_nil_iff,
          List.dropWhile_eq_nil_iff, List.mem_reverse, beq_iff_eq]
        exact fun c hC => hPlain c (List.mem_append_left _ hC)
    · rw [String.toList_append]
      exact hPlain
  · have hOwn :
        Path.names (Path.joined (init ++ [name])) =
          init ++ [name] :=
      Path.names_joined hSlashes (by simp)
    rcases reverse_dropWhile_joined init
        (hSlashes name (by simp)) hName with
      ⟨hSome, hKept⟩
    refine ⟨Path.joined (init ++ [name]), last, ?_, hLast,
      .inner init name hWhole ?_ hOwn hName⟩
    · rw [hKept, if_neg (by simpa using hSome)]
    · unfold Path.IsNeat at hNeat ⊢
      rw [hNames, List.dropLast_concat, List.drop_append,
        List.mem_append, not_or] at hNeat
      rw [hOwn, List.dropLast_concat]
      exact hNeat.1

end Glob

end SymbolAtlas

------------------------------------------------------------
-- Names That Fit
------------------------------------------------------------

namespace SymbolAtlas

namespace Glob

/-
  A name in a directory fits a name of a pattern. Without
  wildcards it is the same; a hidden name fits no pattern that
  starts with a wildcard.
-/
def Fits (pattern name : String) : Prop :=
  if hasMagic pattern.toList then
    Disk.IsName name ∧
      (isHidden name.toList = true →
        isHidden pattern.toList = true) ∧
      meets pattern.toList name = true
  else name = pattern

variable {pattern name : String}

theorem fits_iff_eq
    (hPlain : hasMagic pattern.toList = false) :
    Fits pattern name ↔ name = pattern := by
  unfold Fits
  rw [hPlain, if_neg Bool.false_ne_true]

theorem Fits.ne_empty
    (hFits : Fits pattern name)
    (hSome : pattern ≠ "") :
    name ≠ "" := by
  unfold Fits at hFits
  split at hFits
  · exact hFits.1.ne_empty
  · rw [hFits]
    exact hSome

theorem hasMagic_of_subset
    {part : List Char}
    {text : String}
    (hPlain : hasMagic text.toList = false)
    (hPart : ∀ c ∈ part, c ∈ text.toList) :
    hasMagic part = false := by
  unfold hasMagic at hPlain ⊢
  rw [List.any_eq_false] at hPlain ⊢
  exact fun c hC => hPlain c (hPart c hC)

/- The names of a text without wildcards fit themselves. -/
theorem fits_names_self
    {text : String}
    (hPlain : hasMagic text.toList = false) :
    List.Forall₂ Fits (Path.names text) (Path.names text) := by
  rw [List.forall₂_same]
  intro name hName
  have hOwn :=
    hasMagic_of_subset hPlain fun _ hC =>
      Path.mem_toList_of_mem_names hName hC
  exact (fits_iff_eq hOwn).mpr rfl

/- No other text fits a text without wildcards. -/
theorem eq_of_fits_names
    {text other : String}
    (hPlain : hasMagic text.toList = false)
    (hFits :
      List.Forall₂ Fits (Path.names text) (Path.names other)) :
    other = text := by
  have hOwn :
      ∀ name ∈ Path.names text, hasMagic name.toList = false :=
    fun name hName => hasMagic_of_subset hPlain fun _ hC =>
      Path.mem_toList_of_mem_names hName hC
  have hSame :
      List.Forall₂ Eq (Path.names text) (Path.names other) := by
    apply ((List.forall₂_and_left _ _).mpr ⟨hOwn, hFits⟩).imp
    intro name found hName
    exact ((fits_iff_eq hName.1).mp hName.2).symm
  rw [List.forall₂_eq_eq_eq] at hSame
  rw [← Path.joined_names other, ← hSame, Path.joined_names]

end Glob

end SymbolAtlas

------------------------------------------------------------
-- Expanded Patterns
------------------------------------------------------------

namespace SymbolAtlas

namespace Glob

variable {d : Disk} {onlyDirs : Bool}

/- What a directory holds for a name of a pattern fits it. -/
theorem fits_of_mem_stepsIn
    (hSound : d.IsSound)
    {directory name path : String}
    (hSome : directory ≠ "")
    (hName : '/' ∉ name.toList)
    (hPath : path ∈ stepsIn d name.toList onlyDirs directory) :
    ∃ text,
      path = Path.child directory text ∧
        '/' ∉ text.toList ∧ Fits name text := by
  rcases List.mem_map.mp hPath with ⟨text, hText, rfl⟩
  refine ⟨text, rfl, ?_⟩
  unfold Fits
  split at hText
  · next hMagic =>
      rw [if_pos hMagic]
      have hIsName :=
        hSound.isName_of_mem_namesAt
          (mem_namesAt_of_mem_matching hSome hText)
      unfold matching at hText
      dsimp only at hText
      rw [List.mem_filter] at hText
      refine ⟨hIsName.2, hIsName, fun hHidden => ?_, hText.2⟩
      by_cases hPattern : isHidden name.toList = true
      · exact hPattern
      · rw [if_neg hPattern, List.mem_filter] at hText
        simp [hHidden] at hText
  · next hPlain =>
      rw [if_neg hPlain]
      have hOwn := eq_of_mem_literal hText
      rw [String.ofList_toList] at hOwn
      subst hOwn
      exact ⟨hName, rfl⟩

theorem hasMagic_of_slashes
    {text : List Char}
    (hPlain : ∀ c ∈ text, c = '/') :
    hasMagic text = false := by
  unfold hasMagic
  rw [List.any_eq_false]
  intro c hC
  rw [hPlain c hC]
  decide

/- A front part with wildcards is shorter, and neat itself. -/
theorem Cut.of_hasMagic
    {pattern front name : String}
    (hCut : Cut pattern front name)
    (hMagic : hasMagic front.toList = true) :
    front.toList ≠ pattern.toList ∧ Path.IsNeat front := by
  cases hCut with
  | root before hSlash hPattern hPlain =>
      rw [hasMagic_of_slashes hPlain] at hMagic
      cases hMagic
  | inner init last hPattern hNeat hNames hLast =>
      refine ⟨?_, hNeat⟩
      intro hSame
      have hLength := congrArg List.length hSame
      rw [hPattern] at hLength
      simp at hLength

/- What comes out of the front part of a pattern goes on with it. -/
theorem Cut.fits_child
    {pattern front name directory text : String}
    (hCut : Cut pattern front name)
    (hName : '/' ∉ name.toList)
    (hSelf : hasMagic front.toList = false → directory = front)
    (hFront :
      List.Forall₂ Fits (Path.names front) (Path.names directory))
    (hSome : directory ≠ "")
    (hText : '/' ∉ text.toList)
    (hFits : Fits name text) :
    List.Forall₂ Fits (Path.names pattern)
      (Path.names (Path.child directory text)) := by
  cases hCut with
  | root before hSlash hPattern hPlain =>
      have hMagic := hasMagic_of_slashes hPlain
      have hBefore : hasMagic before.toList = false :=
        hasMagic_of_subset hMagic fun c hC => by
          rw [hSlash, String.toList_append]
          exact List.mem_append_left _ hC
      rw [hSelf hMagic, hPattern, hSlash,
        Path.child_of_slash before hText,
        Path.names_slash_concat before hName,
        Path.names_slash_concat before hText]
      exact List.rel_append (fits_names_self hBefore)
        (.cons hFits .nil)
  | inner init last hPattern hNeat hNames hLast =>
      have hEnd : directory.toList.getLast? ≠ some '/' := by
        intro hSlash
        rcases Path.exists_names_of_getLast? hSlash with
          ⟨more, hMore⟩
        rw [hNames, hMore] at hFront
        have hLength : init.length = more.length := by
          simpa using hFront.length_eq
        have hEmpty := List.forall₂_drop_append _ _ _ hFront
        rw [← hLength, List.drop_left,
          List.forall₂_cons] at hEmpty
        exact hEmpty.1.ne_empty hLast rfl
      rw [Path.child_of_no_slash hText hSome hEnd, hPattern,
        Path.names_slash_concat _ hName,
        Path.names_slash_concat _ hText]
      exact List.rel_append hFront (.cons hFits .nil)

/-
  What a neat pattern expands to fits it name by name. The
  induction is on the slashes of the pattern.
-/
theorem expandFrom_fits
    (hSound : d.IsSound)
    {fuel : Nat}
    {pattern path : String}
    (hRooted : Path.isRooted pattern = true)
    (hNeat : Path.IsNeat pattern)
    (hPath : path ∈ expandFrom d fuel pattern.toList onlyDirs) :
    List.Forall₂ Fits (Path.names pattern) (Path.names path) := by
  induction fuel generalizing pattern path onlyDirs with
  | zero => cases hPath
  | succ fuel ih =>
      rcases exists_cut hRooted hNeat with
        ⟨front, name, hSplit, hName, hCut⟩
      rcases Path.isRooted_iff.mp hRooted with ⟨rest, hRest⟩
      rcases split_front rest with ⟨more, hMore⟩
      rw [← hRest, hSplit] at hMore
      dsimp only at hMore
      unfold expandFrom at hPath
      rw [hSplit] at hPath
      simp only [String.ofList_toList] at hPath
      split at hPath
      · next hPlain =>
          have hSelf : path = pattern := by
            grind
          rw [hSelf]
          exact fits_names_self (by simpa using hPlain)
      rw [if_neg (by simp [hMore])] at hPath
      rcases List.mem_flatMap.mp hPath with
        ⟨directory, hDirectory, hStep⟩
      have hHere :
          directory ≠ "" ∧
            (hasMagic front.toList = false → directory = front) ∧
            List.Forall₂ Fits (Path.names front)
              (Path.names directory) := by
        split at hDirectory
        · next hDeeper =>
            simp only [Bool.and_eq_true] at hDeeper
            refine ⟨?_, fun hPlain => ?_, ?_⟩
            · rintro rfl
              rw [hMore] at hDirectory
              cases isRooted_of_mem_expandFrom hDirectory
            · rw [hPlain] at hDeeper
              cases hDeeper.2
            · exact ih (Path.isRooted_iff.mpr ⟨more, hMore⟩)
                (hCut.of_hasMagic hDeeper.2).2 hDirectory
        · next hHere =>
            rw [List.mem_singleton] at hDirectory
            subst hDirectory
            have hPlain : hasMagic directory.toList = false := by
              rw [← Bool.not_eq_true]
              intro hMagic
              apply hHere
              simp [hMagic, (hCut.of_hasMagic hMagic).1]
            refine ⟨?_, fun _ => rfl, fits_names_self hPlain⟩
            rintro rfl
            cases hMore
      rcases hHere with ⟨hSome, hSelf, hFront⟩
      rcases fits_of_mem_stepsIn hSound hSome hName hStep with
        ⟨text, rfl, hText, hFits⟩
      exact hCut.fits_child hName hSelf hFront hSome hText hFits

end Glob

end SymbolAtlas

namespace SymbolAtlas

namespace Search

variable {d : Disk} {base directory : String}
  {found : List String}

/- The directories that a base stands for fit it name by name. -/
theorem fits_of_mem_directories
    (hSound : d.IsSound)
    (hRooted : Path.isRooted base = true)
    (hNeat : Path.IsNeat base)
    (hFound : directories d base = .ok found)
    (hDirectory : directory ∈ found) :
    d.isDirectory directory = true ∧
      List.Forall₂ Glob.Fits (Path.names base)
        (Path.names directory) := by
  unfold directories at hFound
  dsimp only at hFound
  by_cases hMagic : Glob.hasMagic base.toList = true
  · simp only [if_pos hMagic] at hFound
    split at hFound
    · cases hFound
    · cases hFound
      rw [List.mem_mergeSort, List.mem_filter] at hDirectory
      exact ⟨hDirectory.2,
        Glob.expandFrom_fits hSound hRooted hNeat hDirectory.1⟩
  · have hPlain : Glob.hasMagic base.toList = false := by
      simpa using hMagic
    have hBracket : '[' ∉ base.toList := by
      intro hMem
      apply hMagic
      exact List.any_eq_true.mpr ⟨'[', hMem, by decide⟩
    simp only [if_neg hMagic,
      Path.unescapeBrackets_of_not_mem hBracket] at hFound
    have hSelf :
        directory = base ∧ d.isDirectory base = true := by
      grind
    rw [hSelf.1]
    exact ⟨hSelf.2, Glob.fits_names_self hPlain⟩

end Search

end SymbolAtlas

------------------------------------------------------------
-- Escaped Brackets
------------------------------------------------------------

namespace SymbolAtlas

namespace Glob

open Mask (Item)

/- What a character of a text is in the escaped text. -/
def escapedItem (c : Char) : Item :=
  if Path.isBracket c then .oneOf ⟨false, [.single c]⟩
  else .literal c

theorem classBody?_bracket
    {c : Char}
    (hBracket : Path.isBracket c = true)
    (rest : List Char) :
    classBody? (c :: ']' :: rest) = some ([c], rest) := by
  have hCases : c = '[' ∨ c = ']' := by
    simpa [Path.isBracket] using hBracket
  rcases hCases with rfl | rfl
  · simp [classBody?]
  · simp [classBody?]

theorem setOf_bracket
    {c : Char}
    (hBracket : Path.isBracket c = true) :
    setOf [c] = ⟨false, [.single c]⟩ := by
  have hCases : c = '[' ∨ c = ']' := by
    simpa [Path.isBracket] using hBracket
  rcases hCases with rfl | rfl
  · decide
  · decide

/- Escaped brackets are read one by one. -/
theorem itemsFrom_escaped
    {text : List Char}
    (hText : ∀ c ∈ text, c ∉ ['*', '?'])
    {fuel : Nat}
    (hFuel : (text.flatMap Path.escapeBracket).length < fuel) :
    itemsFrom fuel (text.flatMap Path.escapeBracket) =
      text.map escapedItem := by
  induction text generalizing fuel with
  | nil => cases fuel <;> rfl
  | cons c rest ih =>
      rw [List.forall_mem_cons] at hText
      rw [List.flatMap_cons, List.length_append] at hFuel
      rw [List.flatMap_cons, List.map_cons]
      have hLength : 0 < (Path.escapeBracket c).length := by
        unfold Path.escapeBracket
        split <;> simp
      obtain ⟨left, rfl⟩ : ∃ left, fuel = left + 1 :=
        ⟨fuel - 1, by omega⟩
      have hRest :
          itemsFrom left (rest.flatMap Path.escapeBracket) =
            rest.map escapedItem :=
        ih hText.2 (by omega)
      by_cases hBracket : Path.isBracket c = true
      · have hItem : escapedItem c = .oneOf (setOf [c]) := by
          unfold escapedItem
          rw [if_pos hBracket, setOf_bracket hBracket]
        have hChars : Path.escapeBracket c = ['[', c, ']'] :=
          if_pos hBracket
        rw [hItem, hChars, ← hRest]
        simp only [List.cons_append, List.nil_append, itemsFrom,
          classBody?_bracket hBracket]
      · have hItem : escapedItem c = .literal c :=
          if_neg hBracket
        have hChars : Path.escapeBracket c = [c] :=
          if_neg hBracket
        rw [hItem, hChars, ← hRest]
        have hOther : c ≠ '*' ∧ c ≠ '?' ∧ c ≠ '[' := by
          refine ⟨?_, ?_, ?_⟩
          all_goals
            rintro rfl
            first
            | exact hBracket (by decide)
            | exact hText.1 (by decide)
        rw [List.singleton_append, itemsFrom]
        · exact fun hC => hOther.1 hC
        · exact fun hC => hOther.2.1 hC
        · exact fun hC => hOther.2.2 hC

theorem contains_single
    (c other : Char) :
    (⟨false, [.single c]⟩ : Mask.CharSet).contains other = true ↔
      other = c := by
  unfold Mask.CharSet.contains Mask.CharRange.contains
    Mask.CharRange.single
  have hSame : c ≤ other ∧ other ≤ c ↔ other = c := by
    constructor
    · rintro ⟨hUp, hDown⟩
      exact Char.le_antisymm hDown hUp
    · rintro rfl
      exact ⟨Char.le_refl _, Char.le_refl _⟩
  simpa using hSame

/- Such items accept the text they were made from, and no other. -/
theorem acceptsAll_escaped_iff
    {text name : List Char} :
    Mask.acceptsAll (text.map escapedItem) name = true ↔
      name = text := by
  have hOne (c : Char) :
      ∃ p : Char → Bool,
        (∀ other, p other = true ↔ other = c) ∧
          ∀ text, (escapedItem c).rests text =
            Mask.restsOfOne p text := by
    unfold escapedItem
    split
    · exact ⟨_, contains_single c, fun _ => rfl⟩
    · exact ⟨(· == c), by simp, fun _ => rfl⟩
  induction text generalizing name with
  | nil => simp [Mask.acceptsAll]
  | cons c rest ih =>
      rcases hOne c with ⟨p, hP, hRests⟩
      rw [List.map_cons, Mask.acceptsAll, hRests]
      cases name with
      | nil => simp [Mask.restsOfOne]
      | cons other more =>
          by_cases hOther : p other = true
          · have hSame := (hP other).mp hOther
            simp [Mask.restsOfOne, hOther, ← hSame, ih]
          · have hNot : other ≠ c :=
              fun hSame => hOther ((hP other).mpr hSame)
            simp [Mask.restsOfOne, hOther, hNot]

/- A text whose brackets are escaped is fit by itself alone. -/
theorem eq_of_fits_escaped
    {text name : String}
    (hText : ∀ c ∈ text.toList, c ∉ ['*', '?'])
    (hFits : Fits (Path.escapeBrackets text) name) :
    name = text := by
  unfold Fits at hFits
  split at hFits
  · have hMeets := hFits.2.2
    unfold meets items Path.escapeBrackets at hMeets
    rw [String.toList_ofList,
      itemsFrom_escaped hText (Nat.lt_succ_self _),
      acceptsAll_escaped_iff] at hMeets
    exact String.toList_injective hMeets
  · next hMagic =>
      have hPlain :
          ∀ c ∈ text.toList, Path.escapeBracket c = [c] := by
        intro c hC
        apply if_neg
        intro hBracket
        apply hMagic
        apply List.any_eq_true.mpr
        refine ⟨'[', ?_, by decide⟩
        unfold Path.escapeBrackets
        rw [String.toList_ofList, List.mem_flatMap]
        refine ⟨c, hC, ?_⟩
        unfold Path.escapeBracket
        rw [if_pos hBracket]
        exact List.mem_cons_self
      rw [hFits]
      unfold Path.escapeBrackets
      rw [List.flatMap_congr hPlain]
      simp

end Glob

end SymbolAtlas
