import SymbolAtlas.Path.Text
import SymbolAtlas.Proofs.Disk.LinkFree

/-
  Texts cut behind their slashes.

  A text is a stretch of names, each with a slash behind it, and
  a last name. This is how a path is put together from the names
  of directories, and how a mask is cut at its stars: in front
  of them stands a stretch of names, behind them what is left.

  Key definitions:
    * `Path.stretch`
    * `Path.fixedNames`, the names in front of the stars
    * `Path.Cut`

  Key theorems:
    * `Path.toList_joined_append`
    * `Path.exists_cut`
-/

------------------------------------------------------------
-- Stretches
------------------------------------------------------------

namespace SymbolAtlas

namespace Path

/- Names with a slash behind each of them. -/
def stretch (names : List String) : List Char :=
  names.flatMap fun name => name.toList ++ ['/']

theorem stretch_cons
    (name : String)
    (names : List String) :
    stretch (name :: names) =
      name.toList ++ '/' :: stretch names := by
  simp [stretch]

theorem stretch_append
    (front back : List String) :
    stretch (front ++ back) = stretch front ++ stretch back := by
  simp [stretch]

theorem joined_names
    (text : String) :
    joined (names text) = text := by
  apply String.toList_injective
  unfold joined names segments
  rw [String.toList_intercalate, List.map_map]
  have hChars :
      String.toList ∘ String.ofList = (id : List Char → List Char) := by
    funext chars
    simp
  rw [hChars, List.map_id]
  exact List.intercalate_splitOn '/'

theorem names_ne_nil
    (text : String) :
    names text ≠ [] := by
  simp [names, segments, List.splitOn_ne_nil]

theorem toList_joined_append
    (front : List String)
    {rest : List String}
    (hSome : rest ≠ []) :
    (joined (front ++ rest)).toList =
      stretch front ++ (joined rest).toList := by
  induction front with
  | nil => rfl
  | cons name more ih =>
      have hTail : more ++ rest ≠ [] := by simp [hSome]
      rw [stretch_cons, List.append_assoc, List.cons_append,
        List.cons_append, ← ih]
      cases hMore : more ++ rest with
      | nil => exact absurd hMore hTail
      | cons second others =>
          simp [joined, String.toList_intercalate]

theorem toList_joined_concat
    (front : List String)
    (last : String) :
    (joined (front ++ [last])).toList =
      stretch front ++ last.toList := by
  rw [toList_joined_append front (by simp)]
  simp [joined]

/- A stretch of names is what joins them, and a slash. -/
theorem stretch_concat
    (front : List String)
    (last : String) :
    stretch (front ++ [last]) =
      (joined (front ++ [last])).toList ++ ['/'] := by
  rw [stretch_append, toList_joined_concat]
  simp [stretch]

/- A text is its names in front of the last, and the last. -/
theorem toList_of_names
    {text last : String}
    {front : List String}
    (hNames : names text = front ++ [last]) :
    text.toList = stretch front ++ last.toList := by
  rw [← joined_names text, hNames, toList_joined_concat]

theorem exists_names_concat
    (text : String) :
    ∃ front last,
      names text = front ++ [last] ∧
        (∀ name ∈ front, '/' ∉ name.toList) ∧
        '/' ∉ last.toList ∧
        text.toList = stretch front ++ last.toList := by
  rcases List.eq_nil_or_concat (names text) with
    hNone | ⟨front, last, hNames⟩
  · exact absurd hNone (names_ne_nil text)
  rw [List.concat_eq_append] at hNames
  have hSlash :
      ∀ name ∈ front ++ [last], '/' ∉ name.toList := by
    rw [← hNames]
    exact fun name hName => not_mem_of_mem_names hName
  rw [List.forall_mem_append, List.forall_mem_singleton] at hSlash
  exact ⟨front, last, hNames, hSlash.1, hSlash.2,
    toList_of_names hNames⟩

theorem mem_toList_joined
    {list : List String}
    {c : Char}
    (hMem : c ∈ (joined list).toList) :
    c = '/' ∨ ∃ name ∈ list, c ∈ name.toList := by
  induction list with
  | nil => cases hMem
  | cons name rest ih =>
      by_cases hRest : rest = []
      · subst hRest
        right
        simpa [joined] using hMem
      · have hText := toList_joined_append [name] hRest
        rw [List.singleton_append] at hText
        rw [hText, List.mem_append, stretch_cons] at hMem
        rcases hMem with hFirst | hLater
        · have hCases : c ∈ name.toList ∨ c = '/' := by
            simpa [stretch] using hFirst
          rcases hCases with hName | hSlash
          · exact Or.inr ⟨name, List.mem_cons_self, hName⟩
          · exact Or.inl hSlash
        · rcases ih hLater with hSlash | ⟨other, hOther, hC⟩
          · exact Or.inl hSlash
          · exact Or.inr ⟨other, List.mem_cons_of_mem _ hOther, hC⟩

theorem mem_toList_of_mem_names
    {text name : String}
    (hName : name ∈ names text)
    {c : Char}
    (hC : c ∈ name.toList) :
    c ∈ text.toList := by
  rcases List.append_of_mem hName with ⟨front, back, hSplit⟩
  rw [← joined_names text, hSplit,
    toList_joined_append front (by simp)]
  apply List.mem_append_right
  by_cases hBack : back = []
  · subst hBack
    simpa [joined] using hC
  · have hText := toList_joined_append [name] hBack
    rw [List.singleton_append] at hText
    rw [hText, stretch_cons]
    exact List.mem_append_left _ (List.mem_append_left _ hC)

/- A path of names does not start with a slash. -/
theorem isRooted_joined_of_isName
    {list : List String}
    (hNames : ∀ name ∈ list, Disk.IsName name) :
    isRooted (joined list) = false := by
  have hRead : (⟨"", list⟩ : Route).IsRead := by
    refine ⟨Or.inl rfl, ?_⟩
    intro name hName
    exact ⟨(hNames name hName).2, (hNames name hName).1.1⟩
  exact hRead.isRooted_joined

theorem names_stretch_append
    {front : List String}
    (hFront : ∀ name ∈ front, '/' ∉ name.toList)
    (text : String) :
    names (String.ofList (stretch front ++ text.toList)) =
      front ++ names text := by
  have hText := joined_names text
  have hJoined :
      String.ofList (stretch front ++ text.toList) =
        joined (front ++ names text) := by
    apply String.toList_injective
    rw [toList_joined_append front (names_ne_nil text), hText,
      String.toList_ofList]
  rw [hJoined]
  apply names_joined
  · rw [List.forall_mem_append]
    exact ⟨hFront, fun name hName => not_mem_of_mem_names hName⟩
  · simp [names_ne_nil]

theorem names_slash_concat
    (front : String)
    {name : String}
    (hSlash : '/' ∉ name.toList) :
    names (front ++ "/" ++ name) = names front ++ [name] := by
  rw [names_append_slash, names_of_not_mem hSlash]

/- A text that ends in a slash has an empty last name. -/
theorem exists_names_of_getLast?
    {text : String}
    (hSlash : text.toList.getLast? = some '/') :
    ∃ front, names text = front ++ [""] := by
  rcases List.getLast?_eq_some_iff.mp hSlash with
    ⟨chars, hChars⟩
  have hText : text = String.ofList chars ++ "/" ++ "" := by
    apply String.toList_injective
    simp [hChars]
  refine ⟨names (String.ofList chars), ?_⟩
  rw [hText, names_slash_concat _ (by simp)]

theorem mem_names_of_getLast?
    {text : String}
    (hSlash : text.toList.getLast? = some '/') :
    "" ∈ names text := by
  rcases exists_names_of_getLast? hSlash with ⟨front, hNames⟩
  rw [hNames]
  simp

theorem child_joined
    {chain : List String}
    (hSome : chain ≠ [])
    (hNames : ∀ name ∈ chain, Disk.IsName name)
    {name : String}
    (hName : Disk.IsName name) :
    child (joined chain) name = joined (chain ++ [name]) := by
  rcases child_cases (joined chain) hName with
    ⟨-, hEmpty | hSlash⟩ | ⟨hChild, -, -⟩
  · exact absurd hEmpty (joined_ne_empty hNames hSome)
  · have hMem := mem_names_of_getLast? hSlash
    rw [names_joined (fun name hName => (hNames name hName).2)
      hSome] at hMem
    exact absurd rfl (hNames "" hMem).ne_empty
  · rw [hChild, joined_concat hSome]

end Path

end SymbolAtlas

------------------------------------------------------------
-- Texts as They Are
------------------------------------------------------------

namespace SymbolAtlas

namespace Path

theorem withSlashes_of_not_mem
    {text : String}
    (hText : '\\' ∉ text.toList) :
    withSlashes text = text := by
  have hChars : ∀ c ∈ text.toList, slashed c = c := by
    intro c hC
    unfold slashed
    rw [if_neg]
    rintro rfl
    exact hText hC
  unfold withSlashes
  rw [List.map_congr_left hChars, List.map_id',
    String.ofList_toList]

theorem withSlashes_joined
    {list : List String}
    (hList : ∀ name ∈ list, '\\' ∉ name.toList) :
    withSlashes (joined list) = joined list := by
  apply withSlashes_of_not_mem
  intro hMem
  rcases mem_toList_joined hMem with hSlash | ⟨name, hName, hC⟩
  · cases hSlash
  · exact hList name hName hC

theorem unescapeBrackets_of_not_mem
    {text : String}
    (hText : '[' ∉ text.toList) :
    unescapeBrackets text = text := by
  have hChars :
      ∀ chars : List Char, '[' ∉ chars →
        unescapeChars chars = chars := by
    intro chars hChars
    fun_induction unescapeChars chars with
    | case1 c rest hBracket ih => simp at hChars
    | case2 c rest hBracket ih => simp at hChars
    | case3 c rest hNot ih =>
        rw [List.mem_cons, not_or] at hChars
        rw [ih hChars.2]
    | case4 => rfl
  unfold unescapeBrackets
  rw [hChars _ hText, String.ofList_toList]

theorem dropTrailingSeparators_of_last
    {text : String}
    {front : List Char}
    {last : Char}
    (hText : text.toList = front ++ [last])
    (hLast : isSeparator last = false) :
    dropTrailingSeparators text = text := by
  unfold dropTrailingSeparators
  apply String.toList_injective
  rw [String.toList_ofList, hText, List.reverse_append,
    List.reverse_singleton, List.singleton_append,
    List.dropWhile_cons_of_neg (by simp [hLast])]
  simp

theorem mem_stretch
    {list : List String}
    {c : Char}
    (hMem : c ∈ stretch list) :
    c = '/' ∨ ∃ name ∈ list, c ∈ name.toList := by
  unfold stretch at hMem
  rcases List.mem_flatMap.mp hMem with ⟨name, hName, hC⟩
  rw [List.mem_append, List.mem_singleton] at hC
  rcases hC with hInside | hSlash
  · exact Or.inr ⟨name, hName, hInside⟩
  · exact Or.inl hSlash

end Path

end SymbolAtlas

------------------------------------------------------------
-- Cutting at the Stars
------------------------------------------------------------

namespace SymbolAtlas

namespace Path

/- A name without slashes of either kind. -/
def IsSegment (text : List Char) : Prop :=
  ∀ c ∈ text, isSeparator c = false

theorem cutAtStars?_inside
    {segment : List Char}
    (hSegment : IsSegment segment)
    {s : Char}
    (hSeparator : isSeparator s = true)
    (more : List Char) :
    cutAtStars? false (segment ++ s :: more) =
      (cutAtStars? true more).map
        fun (before, after) => (segment ++ s :: before, after) := by
  induction segment with
  | nil => rw [List.nil_append, cutAtStars?, hSeparator] <;> simp
  | cons c rest ih =>
      rw [IsSegment, List.forall_mem_cons] at hSegment
      rw [List.cons_append, cutAtStars?, hSegment.1,
        ih hSegment.2, Option.map_map]
      · rfl
      · simp

/- Where no stars begin it does not matter if they could. -/
theorem cutAtStars?_of_none
    {text : List Char}
    (hNone : afterStars? text = none) :
    cutAtStars? true text = cutAtStars? false text := by
  cases text with
  | nil => rfl
  | cons c rest =>
      unfold cutAtStars?
      rw [hNone]

/- A name that is no pair of stars is passed over. -/
theorem cutAtStars?_segment
    {segment : List Char}
    (hSegment : IsSegment segment)
    (hStars : segment ≠ ['*', '*'])
    {s : Char}
    (hSeparator : isSeparator s = true)
    (more : List Char) :
    cutAtStars? true (segment ++ s :: more) =
      (cutAtStars? true more).map
        fun (before, after) => (segment ++ s :: before, after) := by
  have hNoStar : s ≠ '*' := by
    rintro rfl
    cases hSeparator
  have hNone : afterStars? (segment ++ s :: more) = none := by
    unfold afterStars?
    split
    · next separator after hText =>
        rcases segment with - | ⟨c, - | ⟨e, - | ⟨f, others⟩⟩⟩
        · simp [hNoStar] at hText
        · simp [hNoStar] at hText
        · simp only [List.cons_append, List.nil_append,
            List.cons.injEq] at hText
          exact absurd (by rw [hText.1, hText.2.1]) hStars
        · simp only [List.cons_append, List.cons.injEq] at hText
          have hPlain := hSegment f (by simp)
          rw [hText.2.2.1] at hPlain
          rw [if_neg (by simp [hPlain])]
    · rfl
  rw [cutAtStars?_of_none hNone, cutAtStars?_inside hSegment hSeparator]

theorem cutAtStars?_stretch
    {names : List String}
    (hNames : ∀ name ∈ names, IsSegment name.toList)
    (hStars : "**" ∉ names)
    (more : List Char) :
    cutAtStars? true (stretch names ++ more) =
      (cutAtStars? true more).map
        fun (before, after) => (stretch names ++ before, after) := by
  induction names with
  | nil =>
      change cutAtStars? true more = Option.map id _
      rw [Option.map_id, id]
  | cons name rest ih =>
      rw [List.forall_mem_cons] at hNames
      rw [List.mem_cons, not_or] at hStars
      have hName : name.toList ≠ ['*', '*'] := by
        intro hChars
        apply hStars.1
        apply String.toList_injective
        rw [hChars]
        rfl
      rw [stretch_cons, List.append_assoc, List.cons_append,
        cutAtStars?_segment hNames.1 hName rfl, ih hNames.2
          hStars.2,
        Option.map_map]
      congr 1
      funext cut
      simp

/- A text is cut behind its last slash. -/
theorem splitLast_stretch
    (names : List String)
    {last : List Char}
    (hLast : IsSegment last) :
    splitLast (stretch names ++ last) = (stretch names, last) := by
  have hPlain :
      ∀ c ∈ last.reverse, (!isSeparator c) = true := by
    intro c hC
    rw [hLast c (List.mem_reverse.mp hC)]
    rfl
  unfold splitLast
  rcases List.eq_nil_or_concat names with rfl | ⟨front, name, rfl⟩
  · have hNone : stretch [] ++ last = last := rfl
    rw [hNone, List.takeWhile_eq_self_iff.mpr hPlain,
      List.dropWhile_eq_nil_iff.mpr hPlain]
    simp [stretch]
  · have hChars :
        (stretch (front.concat name) ++ last).reverse =
          last.reverse ++
            '/' :: (stretch front ++ name.toList).reverse := by
      simp [stretch]
    have hSlash : isSeparator '/' = true := rfl
    dsimp only
    rw [hChars, List.takeWhile_append_of_pos hPlain,
      List.dropWhile_append_of_pos hPlain]
    simp [stretch, hSlash]

/- A path with a separator is cut at stars in front of the last. -/
theorem splitRecursive_of_splitLast
    {path : String}
    {directory name : List Char}
    (hSplit : splitLast path.toList = (directory, name))
    (hSome : directory ≠ []) :
    splitRecursive path =
      match cutAtStars? true directory with
      | some (before, after) =>
          ⟨String.ofList before,
            String.ofList (after ++ name), true⟩
      | none =>
          ⟨String.ofList directory, String.ofList name, false⟩ := by
  unfold splitRecursive
  rw [hSplit]
  cases directory with
  | nil => exact absurd rfl hSome
  | cons c more => rfl

theorem splitRecursive_of_stretch
    {names : List String}
    (hSome : names ≠ [])
    {last : List Char}
    (hLast : IsSegment last) :
    splitRecursive (String.ofList (stretch names ++ last)) =
      match cutAtStars? true (stretch names) with
      | some (before, after) =>
          ⟨String.ofList before,
            String.ofList (after ++ last), true⟩
      | none =>
          ⟨String.ofList (stretch names),
            String.ofList last, false⟩ := by
  apply splitRecursive_of_splitLast
  · rw [String.toList_ofList, splitLast_stretch names hLast]
  · cases names with
    | nil => exact absurd rfl hSome
    | cons name rest => simp [stretch]

/- Without stars only the last name is left for the goal. -/
theorem splitRecursive_of_no_stars
    {names : List String}
    (hSome : names ≠ [])
    (hNames : ∀ name ∈ names, IsSegment name.toList)
    (hStars : "**" ∉ names)
    {last : List Char}
    (hLast : IsSegment last) :
    splitRecursive (String.ofList (stretch names ++ last)) =
      ⟨String.ofList (stretch names), String.ofList last,
        false⟩ := by
  have hCut := cutAtStars?_stretch hNames hStars []
  rw [List.append_nil] at hCut
  rw [splitRecursive_of_stretch hSome hLast, hCut]
  rfl

/- Stars divide the names into a directory and a goal. -/
theorem splitRecursive_of_stars
    {front : List String}
    (hFront : ∀ name ∈ front, IsSegment name.toList)
    (hStars : "**" ∉ front)
    (back : List String)
    {last : List Char}
    (hLast : IsSegment last) :
    splitRecursive
        (String.ofList (stretch (front ++ "**" :: back) ++ last)) =
      ⟨String.ofList (stretch front),
        String.ofList (stretch back ++ last), true⟩ := by
  have hAfter :
      cutAtStars? true (stretch ("**" :: back)) =
        some ([], stretch back) := rfl
  have hCut :=
    cutAtStars?_stretch hFront hStars (stretch ("**" :: back))
  rw [← stretch_append, hAfter, Option.map_some] at hCut
  dsimp only at hCut
  rw [List.append_nil] at hCut
  rw [splitRecursive_of_stretch (by simp) hLast, hCut]

end Path

end SymbolAtlas

------------------------------------------------------------
-- Cutting a Mask
------------------------------------------------------------

namespace SymbolAtlas

namespace Path

/- The names of a mask in front of its last name and its stars. -/
def fixedNames (mask : String) : List String :=
  (names mask).dropLast.takeWhile (· != "**")

/- The stars that a mask is cut at. -/
def starsOf (recursive : Bool) : List Char :=
  if recursive then ['*', '*', '/'] else []

/-
  From the working directory a mask is looked for below its
  fixed names. Behind them stand the stars, if there are any,
  and the rest of its names.
-/
structure Cut
    (mask rest : String)
    (recursive : Bool) : Prop where
  split :
    splitRecursive ("./" ++ mask) =
      ⟨String.ofList (stretch ("." :: fixedNames mask)), rest,
        recursive⟩
  text :
    mask.toList =
      stretch (fixedNames mask) ++
        (starsOf recursive ++ rest.toList)
  single : recursive = false → '/' ∉ rest.toList
  suffix : names rest <:+ names mask

theorem dot_append_eq
    {init : List String}
    {last mask : String}
    (hNames : names mask = init ++ [last]) :
    mask.toList = stretch init ++ last.toList ∧
      "./" ++ mask =
        String.ofList (stretch ("." :: init) ++ last.toList) := by
  have hText := toList_of_names hNames
  refine ⟨hText, ?_⟩
  apply String.toList_injective
  rw [String.toList_append, hText, String.toList_ofList,
    stretch_cons]
  simp

/- Every mask without backslashes can be cut. -/
theorem exists_cut
    {mask : String}
    (hNames : ∀ name ∈ names mask, IsSegment name.toList) :
    ∃ rest recursive, Cut mask rest recursive := by
  rcases List.eq_nil_or_concat (names mask) with
    hNone | ⟨init, last, hSplit⟩
  · exact absurd hNone (names_ne_nil mask)
  rw [List.concat_eq_append] at hSplit
  have hFixed :
      fixedNames mask = init.takeWhile (· != "**") := by
    unfold fixedNames
    rw [hSplit, List.dropLast_concat]
  have hMem : last ∈ names mask := by
    rw [hSplit]
    simp
  have hSlash := not_mem_of_mem_names hMem
  rcases dot_append_eq hSplit with ⟨hText, hWhole⟩
  rw [hSplit, List.forall_mem_append,
    List.forall_mem_singleton] at hNames
  rcases hNames with ⟨hInit, hLast⟩
  have hDot : IsSegment ".".toList := by
    simp [IsSegment, isSeparator]
  have hFront :
      ∀ name ∈ "." :: fixedNames mask, IsSegment name.toList := by
    rw [List.forall_mem_cons, hFixed]
    exact ⟨hDot, fun name hName =>
      hInit name (List.takeWhile_subset _ hName)⟩
  have hStars : "**" ∉ "." :: fixedNames mask := by
    rw [List.mem_cons, not_or, hFixed]
    refine ⟨by decide, fun hMem => ?_⟩
    simpa using List.mem_takeWhile_imp hMem
  have hParts :=
    List.takeWhile_append_dropWhile (p := (· != "**")) (l := init)
  rw [← hFixed] at hParts
  cases hRest : init.dropWhile (· != "**") with
  | nil =>
      rw [hRest, List.append_nil] at hParts
      refine ⟨last, false, ?_, ?_, fun _ => hSlash, ?_⟩
      · rw [hWhole, ← hParts,
          splitRecursive_of_no_stars (by simp) hFront hStars hLast,
          String.ofList_toList]
      · rw [hText, ← hParts]
        rfl
      · rw [hSplit, names_of_not_mem hSlash]
        exact List.suffix_append init [last]
  | cons stars back =>
      have hFirst := List.head?_dropWhile_not (· != "**") init
      rw [hRest] at hFirst
      have hPair : stars = "**" := by simpa using hFirst
      subst hPair
      rw [hRest] at hParts
      have hBack := toList_joined_concat back last
      have hSuffix : back ++ [last] <:+ names mask := by
        rw [hSplit, ← hParts]
        exact ⟨fixedNames mask ++ ["**"], by simp⟩
      refine ⟨joined (back ++ [last]), true, ?_, ?_, ?_, ?_⟩
      · rw [hWhole, ← hParts, ← List.cons_append,
          splitRecursive_of_stars hFront hStars back hLast,
          ← hBack, String.ofList_toList]
      · rw [hText, ← hParts, stretch_append, stretch_cons, hBack]
        simp [starsOf]
      · intro hFalse
        cases hFalse
      · rw [names_joined _ (by simp)]
        · exact hSuffix
        · intro name hName
          exact not_mem_of_mem_names (hSuffix.subset hName)

end Path

end SymbolAtlas
