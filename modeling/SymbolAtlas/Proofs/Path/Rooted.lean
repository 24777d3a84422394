import Mathlib.Data.List.TakeWhile
import SymbolAtlas.Disk.Resolve
import SymbolAtlas.Proofs.Attempts
import SymbolAtlas.Search.Query
import SymbolAtlas.Settings.Basic

/-
  Texts that start at the root of the disk.

  Real paths start at the root, and nothing that a search does
  with such a path makes it relative: neither splitting off a
  mask, nor expanding wildcards, nor going down to a child.

  Key theorems:
    * `Disk.isRooted_of_resolve`
    * `Path.isRooted_child`, `Path.isAbsolute_of_isRooted`
    * `Path.isRooted_base`
    * `Search.isRooted_of_mem_directories`
-/

------------------------------------------------------------
-- Texts
------------------------------------------------------------

namespace SymbolAtlas

namespace Path

theorem isRooted_iff
    {text : String} :
    isRooted text = true ↔ ∃ rest, text.toList = '/' :: rest := by
  unfold isRooted
  cases text.toList <;> simp

theorem isRooted_ofList_cons
    (rest : List Char) :
    isRooted (String.ofList ('/' :: rest)) = true :=
  isRooted_iff.mpr ⟨rest, by simp⟩

theorem isRooted_slash : isRooted "/" = true := by
  decide

/- What follows a rooted text does not matter. -/
theorem isRooted_append
    {text : String}
    (hRooted : isRooted text = true)
    (more : String) :
    isRooted (text ++ more) = true := by
  rcases isRooted_iff.mp hRooted with ⟨rest, hText⟩
  exact isRooted_iff.mpr ⟨rest ++ more.toList, by simp [hText]⟩

theorem isAbsolute_of_isRooted
    {text : String}
    (hRooted : isRooted text = true) :
    isAbsolute text = true := by
  rcases isRooted_iff.mp hRooted with ⟨rest, hText⟩
  have hRoot : startsAtRoot ('/' :: rest) = true := by
    rcases rest with - | ⟨c, - | ⟨d, more⟩⟩ <;>
      simp [startsAtRoot, isSeparator]
  unfold isAbsolute
  rw [hText, hRoot, Bool.true_or]

/- A child of a rooted directory is rooted. -/
theorem isRooted_child
    {directory : String}
    (hRooted : isRooted directory = true)
    (name : String) :
    isRooted (child directory name) = true := by
  unfold child
  split
  · next hName => exact hName
  · split
    · exact isRooted_append hRooted name
    · exact isRooted_append (isRooted_append hRooted "/") name

end Path

end SymbolAtlas

------------------------------------------------------------
-- Locations
------------------------------------------------------------

namespace SymbolAtlas

namespace Path

/- A nonempty first part of a rooted text is rooted. -/
theorem exists_cons_of_isPrefix
    {front rest : List Char}
    (hPrefix : front <+: '/' :: rest)
    (hFront : front ≠ []) :
    ∃ more, front = '/' :: more := by
  rcases hPrefix with ⟨after, hAfter⟩
  cases front with
  | nil => exact absurd rfl hFront
  | cons c more =>
      rw [List.cons_append, List.cons.injEq] at hAfter
      exact ⟨more, by rw [hAfter.1]⟩

theorem reverse_dropWhile_isPrefix
    (p : Char → Bool)
    (text : List Char) :
    (text.reverse.dropWhile p).reverse <+: text := by
  rw [← List.reverse_suffix, List.reverse_reverse]
  exact List.dropWhile_suffix p

/- The location of a rooted directory is rooted. -/
theorem isRooted_location
    {directory location suffix : String}
    (hRooted : isRooted directory = true)
    (hSuffix : isRooted suffix = true)
    (hLocation :
      Query.location suffix directory = .ok location) :
    isRooted location = true := by
  unfold Query.location at hLocation
  split at hLocation
  · cases hLocation
  · cases hLocation
    rcases isRooted_iff.mp hRooted with ⟨rest, hText⟩
    by_cases hBare :
        (directory.toList.reverse.dropWhile
          isSeparator).reverse = []
    · unfold dropTrailingSeparators
      rw [hBare]
      simpa using hSuffix
    · have hPrefix :=
        reverse_dropWhile_isPrefix isSeparator directory.toList
      rw [hText] at hPrefix hBare
      rcases exists_cons_of_isPrefix hPrefix hBare with
        ⟨more, hMore⟩
      apply isRooted_append
      unfold dropTrailingSeparators
      rw [hText, hMore]
      exact isRooted_ofList_cons more

theorem isRooted_escapeBrackets
    {text : String}
    (hRooted : isRooted text = true) :
    isRooted (escapeBrackets text) = true := by
  rcases isRooted_iff.mp hRooted with ⟨rest, hText⟩
  unfold escapeBrackets
  rw [hText, List.flatMap_cons]
  exact isRooted_ofList_cons _

theorem isRooted_unescapeBrackets
    {text : String}
    (hRooted : isRooted text = true) :
    isRooted (unescapeBrackets text) = true := by
  rcases isRooted_iff.mp hRooted with ⟨rest, hText⟩
  unfold unescapeBrackets
  rw [hText, unescapeChars]
  · exact isRooted_ofList_cons _
  · intro c more hBracket
    cases hBracket

/- A slash begins no stars, so a cut lies behind it. -/
theorem cutAtStars?_slash
    (text : List Char) :
    cutAtStars? true ('/' :: text) =
      (cutAtStars? true text).map
        fun (before, after) => ('/' :: before, after) :=
  rfl

/- The base of a rooted text is rooted. -/
theorem isRooted_base
    {text : String}
    (hRooted : isRooted text = true) :
    isRooted (splitRecursive text).base = true := by
  rcases isRooted_iff.mp hRooted with ⟨rest, hText⟩
  have hDirectory :
      ∃ more, (splitLast text.toList).1 = '/' :: more := by
    have hPrefix : (splitLast text.toList).1 <+: '/' :: rest := by
      rw [← hText]
      exact reverse_dropWhile_isPrefix (!isSeparator ·) text.toList
    apply exists_cons_of_isPrefix hPrefix
    intro hNil
    have hAll :=
      List.dropWhile_eq_nil_iff.mp (List.reverse_eq_nil_iff.mp hNil)
    have hSlash := hAll '/' (by rw [hText]; simp)
    cases hSlash
  rcases hDirectory with ⟨more, hMore⟩
  rcases hSplit : splitLast text.toList with ⟨directory, name⟩
  rw [hSplit] at hMore
  dsimp only at hMore
  subst hMore
  unfold splitRecursive
  rw [hSplit]
  dsimp only
  cases hCut : cutAtStars? true ('/' :: more) with
  | none => exact isRooted_ofList_cons more
  | some cut =>
      rw [cutAtStars?_slash, Option.map_eq_some_iff] at hCut
      rcases hCut with ⟨⟨front, back⟩, -, rfl⟩
      exact isRooted_ofList_cons front

end Path

end SymbolAtlas

------------------------------------------------------------
-- Wildcards
------------------------------------------------------------

namespace SymbolAtlas

namespace Glob

/- A text up to and with its last slash. -/
theorem take_eq_reverse_dropWhile
    (p : Char → Bool)
    (text : List Char) :
    text.take
        (text.length - (text.reverse.takeWhile p).reverse.length) =
      (text.reverse.dropWhile p).reverse := by
  have hWhole :
      (text.reverse.dropWhile p).reverse ++
        (text.reverse.takeWhile p).reverse = text := by
    rw [← List.reverse_append, List.takeWhile_append_dropWhile,
      List.reverse_reverse]
  have hLength := congrArg List.length hWhole
  rw [List.length_append] at hLength
  calc
    text.take
        (text.length - (text.reverse.takeWhile p).reverse.length)
      = text.take (text.reverse.dropWhile p).reverse.length := by
          rw [← hLength, Nat.add_sub_cancel]
    _ = (text.reverse.dropWhile p).reverse :=
          List.prefix_iff_eq_take.mp ⟨_, hWhole⟩ |>.symm

/- The front part of a rooted pattern is rooted. -/
theorem split_front
    (rest : List Char) :
    ∃ more, (split ('/' :: rest)).1 = '/' :: more := by
  unfold split
  dsimp only
  rw [take_eq_reverse_dropWhile]
  have hFront :=
    Path.reverse_dropWhile_isPrefix (· != '/') ('/' :: rest)
  split
  · apply Path.exists_cons_of_isPrefix hFront
    intro hNil
    have hAll :=
      List.dropWhile_eq_nil_iff.mp (List.reverse_eq_nil_iff.mp hNil)
    have hSlash := hAll '/' (by simp)
    simp at hSlash
  · next hBare =>
      apply Path.exists_cons_of_isPrefix
        ((Path.reverse_dropWhile_isPrefix _ _).trans hFront)
      simpa using hBare

/- What a rooted pattern expands to is rooted. -/
theorem isRooted_of_mem_expandFrom
    {d : Disk}
    {fuel : Nat}
    {rest : List Char}
    {onlyDirs : Bool}
    {path : String}
    (hPath : path ∈ expandFrom d fuel ('/' :: rest) onlyDirs) :
    Path.isRooted path = true := by
  induction fuel generalizing rest onlyDirs path with
  | zero => cases hPath
  | succ fuel ih =>
      rcases split_front rest with ⟨more, hFront⟩
      unfold expandFrom at hPath
      rcases hSplit : split ('/' :: rest) with ⟨front, name⟩
      rw [hSplit] at hFront hPath
      dsimp only at hFront hPath
      subst hFront
      split at hPath
      · have hSelf : path = String.ofList ('/' :: rest) := by
          grind
        rw [hSelf]
        exact Path.isRooted_ofList_cons rest
      · rw [if_neg (by simp)] at hPath
        rcases List.mem_flatMap.mp hPath with
          ⟨directory, hDirectory, hName⟩
        rcases List.mem_map.mp hName with ⟨name, -, rfl⟩
        apply Path.isRooted_child
        split at hDirectory
        · exact ih hDirectory
        · rw [List.mem_singleton] at hDirectory
          rw [hDirectory]
          exact Path.isRooted_ofList_cons more

end Glob

namespace Search

/- The directories of a rooted base are rooted. -/
theorem isRooted_of_mem_directories
    {d : Disk}
    {base directory : String}
    {found : List String}
    (hRooted : Path.isRooted base = true)
    (hFound : directories d base = .ok found)
    (hDirectory : directory ∈ found) :
    Path.isRooted directory = true := by
  unfold directories at hFound
  dsimp only at hFound
  by_cases hMagic : Glob.hasMagic base.toList = true
  · simp only [if_pos hMagic] at hFound
    split at hFound
    · cases hFound
    · cases hFound
      rw [List.mem_mergeSort, List.mem_filter] at hDirectory
      rcases Path.isRooted_iff.mp hRooted with ⟨rest, hBase⟩
      have hExpanded := hDirectory.1
      unfold Glob.expand at hExpanded
      rw [hBase] at hExpanded
      exact Glob.isRooted_of_mem_expandFrom hExpanded
  · simp only [if_neg hMagic] at hFound
    have hSelf : directory = Path.unescapeBrackets base := by
      grind
    rw [hSelf]
    exact Path.isRooted_unescapeBrackets hRooted

end Search

end SymbolAtlas

------------------------------------------------------------
-- Real Paths
------------------------------------------------------------

namespace SymbolAtlas

namespace Route

theorem isRooted_text
    {r : Route}
    (hRoot : Path.isRooted r.root = true) :
    Path.isRooted r.text = true := by
  have hBody : Path.isRooted (r.root ++ Path.joined r.names) = true :=
    Path.isRooted_append hRoot _
  unfold text
  dsimp only
  split
  · next hEmpty =>
      rcases Path.isRooted_iff.mp hBody with ⟨rest, hRest⟩
      rw [String.isEmpty_iff] at hEmpty
      rw [hEmpty] at hRest
      cases hRest
  · exact hBody

theorem isRooted_rootOf
    {text : String}
    (hRooted : Path.isRooted text = true) :
    Path.isRooted (ofText text).root = true := by
  rcases Path.isRooted_iff.mp hRooted with ⟨rest, hText⟩
  unfold ofText
  dsimp only
  rw [hText]
  unfold rootOf
  split <;> first | decide | simp_all

end Route

namespace Disk

theorem isRooted_textOf
    (place : Place) :
    Path.isRooted (textOf place) = true :=
  Path.isRooted_append Path.isRooted_slash _

/- A search that stops at a link keeps a rooted text. -/
theorem isRooted_stoppedAt
    (link : Place)
    (errands : List Errand) :
    Path.isRooted (stoppedAt link errands).root = true := by
  have hFold :
      ∀ (parts : List (List String)) (text : String),
        Path.isRooted text = true →
        Path.isRooted (parts.foldl
          (fun path names => Path.child path (Path.joined names))
          text) = true := by
    intro parts
    induction parts with
    | nil => exact fun _ hText => hText
    | cons names rest ih =>
        intro text hText
        exact ih _ (Path.isRooted_child hText _)
  exact Route.isRooted_rootOf (hFold _ _ (isRooted_textOf link))

theorem isRooted_runErrands
    (d : Disk)
    (fuel : Nat)
    (known : List (Place × Place))
    (place : Place)
    (errands : List Errand) :
    Path.isRooted (d.runErrands fuel known place errands).root =
      true := by
  fun_induction runErrands d fuel known place errands with
  | case1 => exact Path.isRooted_slash
  | case2 => exact Path.isRooted_slash
  | case3 fuel known place link rest ih => exact ih
  | case4 fuel known place name rest _ ih => exact ih
  | case5 fuel known place rest _ ih => exact ih
  | case6 => assumption
  | case7 => exact isRooted_stoppedAt _ _
  | case8 => assumption
  | case9 => assumption

/- A real path starts at the root. -/
theorem isRooted_of_resolve
    {d : Disk}
    {path real : String}
    (hResolve : d.resolve path = .ok real) :
    Path.isRooted real = true := by
  unfold resolve at hResolve
  dsimp only at hResolve
  split at hResolve
  · cases hResolve
  · rw [← Except.ok.inj hResolve]
    exact Route.isRooted_text (isRooted_runErrands d _ _ _ _)

/- A real path that is found is that of a path on the disk. -/
theorem resolve_of_realPath
    {d : Disk}
    {path real : String}
    (hReal : d.realPath path = .ok real) :
    d.resolve path = .ok real := by
  unfold realPath at hReal
  split at hReal
  · cases hReal
  · exact hReal

end Disk

namespace Settings

variable {s : Settings} {d : Disk} {path real : String}

/- What the settings lead to is the real path of some text. -/
theorem exists_resolve_of_resolvePath
    (hResolve : s.resolvePath d path = .ok real) :
    ∃ text, d.resolve text = .ok real := by
  rcases exists_ok_of_bind hResolve with ⟨route, -, hReal⟩
  exact ⟨_, Disk.resolve_of_realPath hReal⟩

theorem isRooted_of_resolvePath
    (hResolve : s.resolvePath d path = .ok real) :
    Path.isRooted real = true := by
  rcases exists_resolve_of_resolvePath hResolve with ⟨text, hText⟩
  exact Disk.isRooted_of_resolve hText

end Settings

end SymbolAtlas
