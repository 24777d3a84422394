import SymbolAtlas.Proofs.Path.Stretches

/-
  Cutting a path text at its first pair of stars.

  Separators of either kind divide a text into parts. A part that
  is a pair of stars counts if a separator follows it. The first
  of these is where the text is cut; what stands in front of it
  ends in a separator, and with the stars and their separator it
  makes up the text again.

  Key definitions:
    * `Path.parts`, `Path.EndsPart`

  Key theorems:
    * `Path.splitLast_spec`
    * `Path.cutAtStars?_spec`
    * `Path.splitRecursive_cuts_at_first`
-/

------------------------------------------------------------
-- Parts Between Separators
------------------------------------------------------------

namespace SymbolAtlas

namespace Path

/- The parts of a text between separators of either kind. -/
def partsOf (text : List Char) : List (List Char) :=
  text.splitOnP isSeparator

def parts (text : String) : List String :=
  (partsOf text.toList).map String.ofList

/- Two stars and nothing else. -/
def stars : List Char :=
  ['*', '*']

/- The text is empty, or a separator is its last character. -/
def EndsPart (text : List Char) : Prop :=
  ∀ c, text.getLast? = some c → isSeparator c = true

variable {text : List Char} {s : Char}

theorem partsOf_of_isSegment
    (hText : IsSegment text) :
    partsOf text = [text] :=
  List.splitOnP_eq_singleton hText

theorem partsOf_append
    (hSeparator : isSeparator s = true)
    (text more : List Char) :
    partsOf (text ++ s :: more) = partsOf text ++ partsOf more :=
  List.splitOnP_append_cons text more hSeparator

theorem mem_parts_iff
    {text : String} :
    "**" ∈ parts text ↔ stars ∈ partsOf text.toList := by
  unfold parts
  rw [List.mem_map]
  constructor
  · rintro ⟨part, hPart, hStars⟩
    have hChars := congrArg String.toList hStars
    rw [String.toList_ofList] at hChars
    rw [hChars] at hPart
    exact hPart
  · intro hPart
    exact ⟨stars, hPart, rfl⟩

/- A text is one part, or a part with a separator and more. -/
theorem exists_part
    (text : List Char) :
    IsSegment text ∨
      ∃ part s more,
        IsSegment part ∧ isSeparator s = true ∧
          text = part ++ s :: more := by
  induction text with
  | nil => exact Or.inl (by simp [IsSegment])
  | cons c rest ih =>
      cases hC : isSeparator c with
      | true =>
          exact Or.inr ⟨[], c, rest, by simp [IsSegment], hC, rfl⟩
      | false =>
          rcases ih with hRest | ⟨part, s, more, hPart, hS, rfl⟩
          · exact Or.inl (List.forall_mem_cons.mpr ⟨hC, hRest⟩)
          · exact Or.inr ⟨c :: part, s, more,
              List.forall_mem_cons.mpr ⟨hC, hPart⟩, hS, rfl⟩

theorem endsPart_nil : EndsPart [] := by
  intro c hLast
  cases hLast

/- What ends a text ends the text with something in front. -/
theorem EndsPart.of_append
    {front : List Char}
    (hEnds : EndsPart (front ++ s :: text)) :
    EndsPart text := by
  intro c hLast
  apply hEnds c
  rw [List.getLast?_append_of_ne_nil _ (by simp),
    List.getLast?_cons, hLast]
  rfl

theorem EndsPart.append
    {front : List Char}
    (hSeparator : isSeparator s = true)
    (hEnds : EndsPart text) :
    EndsPart (front ++ s :: text) := by
  intro c hLast
  rw [List.getLast?_append_of_ne_nil _ (by simp),
    List.getLast?_cons] at hLast
  cases hText : text.getLast? with
  | none =>
      rw [hText] at hLast
      cases hLast
      exact hSeparator
  | some last =>
      rw [hText] at hLast
      cases hLast
      exact hEnds last hText

/- A text that ends in no separator and has none is empty. -/
theorem EndsPart.eq_nil
    (hEnds : EndsPart text)
    (hText : IsSegment text) :
    text = [] := by
  cases hLast : text.getLast? with
  | none => exact List.getLast?_eq_none_iff.mp hLast
  | some c =>
      have hSeparator := hEnds c hLast
      rw [hText c (List.mem_of_getLast? hLast)] at hSeparator
      cases hSeparator

theorem EndsPart.exists_front
    (hEnds : EndsPart text)
    (hSome : text ≠ []) :
    ∃ front s, isSeparator s = true ∧ text = front ++ [s] := by
  rcases List.eq_nil_or_concat text with rfl | ⟨front, s, rfl⟩
  · exact absurd rfl hSome
  · rw [List.concat_eq_append] at hEnds ⊢
    exact ⟨front, s, hEnds s List.getLast?_concat, rfl⟩

end Path

end SymbolAtlas

------------------------------------------------------------
-- The Two Cuts
------------------------------------------------------------

namespace SymbolAtlas

namespace Path

variable {s : Char}

/- A text is cut behind its last separator, if it has one. -/
theorem splitLast_spec
    (text : List Char) :
    text = (splitLast text).1 ++ (splitLast text).2 ∧
      EndsPart (splitLast text).1 ∧
      IsSegment (splitLast text).2 := by
  unfold splitLast
  dsimp only
  refine ⟨?_, ?_, ?_⟩
  · rw [← List.reverse_append, List.takeWhile_append_dropWhile,
      List.reverse_reverse]
  · intro c hLast
    rw [List.getLast?_reverse] at hLast
    have hStops :=
      List.head?_dropWhile_not (!isSeparator ·) text.reverse
    rw [hLast] at hStops
    simpa using hStops
  · intro c hC
    have hTaken := List.mem_takeWhile_imp (List.mem_reverse.mp hC)
    simpa using hTaken

/- A pair of stars that begins and ends as a part is a part. -/
theorem mem_partsOf_stars
    {before : List Char}
    (hBefore : EndsPart before)
    (hSeparator : isSeparator s = true)
    (after : List Char) :
    stars ∈ partsOf (before ++ stars ++ s :: after) := by
  have hStars : stars ∈ partsOf (stars ++ s :: after) := by
    rw [partsOf_append hSeparator]
    exact List.mem_append_left _ (by decide)
  by_cases hSome : before = []
  · subst hSome
    exact hStars
  · rcases hBefore.exists_front hSome with ⟨front, t, hT, rfl⟩
    rw [List.append_assoc, List.append_assoc,
      List.singleton_append, partsOf_append hT]
    exact List.mem_append_right _ hStars

/-
  The stars that a text is cut at are its first ones. The
  induction is on the parts of the text: a part that is no pair
  of stars is passed over with its separator.
-/
theorem cutAtStars?_spec
    (text : List Char)
    (hEnds : EndsPart text) :
    (cutAtStars? true text = none ∧ stars ∉ partsOf text) ∨
      ∃ before s after,
        cutAtStars? true text = some (before, after) ∧
          isSeparator s = true ∧
          text = before ++ stars ++ s :: after ∧
          EndsPart before ∧ stars ∉ partsOf before := by
  induction hLength : text.length using Nat.strong_induction_on
    generalizing text with
  | _ length ih =>
      rcases exists_part text with hText | ⟨part, s, more, hPart, hS,
        rfl⟩
      · have hNone := hEnds.eq_nil hText
        subst hNone
        exact Or.inl ⟨rfl, by decide⟩
      · by_cases hStars : part = stars
        · subst hStars
          refine Or.inr ⟨[], s, more, ?_, hS, rfl, endsPart_nil,
            by decide⟩
          have hAfter : afterStars? ('*' :: '*' :: s :: more) =
              some more := if_pos hS
          change cutAtStars? true ('*' :: '*' :: s :: more) = _
          unfold cutAtStars?
          rw [hAfter]
        · have hShorter : more.length < length := by
            rw [← hLength]
            simp
            omega
          have hPass := cutAtStars?_segment hPart hStars hS more
          rcases ih _ hShorter more hEnds.of_append rfl with
            ⟨hNone, hAbsent⟩ |
            ⟨before, t, after, hCut, hT, rfl, hBefore, hAbsent⟩
          · left
            rw [hPass, hNone, partsOf_append hS,
              partsOf_of_isSegment hPart]
            refine ⟨rfl, ?_⟩
            simpa [Ne.symm hStars] using hAbsent
          · right
            refine ⟨part ++ s :: before, t, after, ?_, hT, by simp,
              hBefore.append hS, ?_⟩
            · rw [hPass, hCut]
              rfl
            · rw [partsOf_append hS, partsOf_of_isSegment hPart]
              simpa [Ne.symm hStars] using hAbsent

end Path

end SymbolAtlas

------------------------------------------------------------
-- The Recursive Part
------------------------------------------------------------

namespace SymbolAtlas

namespace Path

/- Stars count in front of the last separator. -/
theorem mem_dropLast_parts_iff
    {path : String} :
    "**" ∈ (parts path).dropLast ↔
      stars ∈ partsOf (splitLast path.toList).1 := by
  rcases splitLast_spec path.toList with ⟨hWhole, hEnds, hName⟩
  revert hWhole hEnds hName
  generalize (splitLast path.toList).1 = directory
  generalize (splitLast path.toList).2 = name
  intro hWhole hEnds hName
  have hChars :
      "**" ∈ (parts path).dropLast ↔
        stars ∈ (partsOf path.toList).dropLast := by
    unfold parts
    rw [← List.map_dropLast, List.mem_map]
    constructor
    · rintro ⟨part, hPart, hStars⟩
      rw [← String.toList_ofList (l := part), hStars] at hPart
      exact hPart
    · intro hPart
      exact ⟨stars, hPart, rfl⟩
  rw [hChars, hWhole]
  by_cases hSome : directory = []
  · subst hSome
    have hEmpty : stars ∉ partsOf [] := by decide
    rw [List.nil_append, partsOf_of_isSegment hName]
    simp [hEmpty]
  · rcases hEnds.exists_front hSome with ⟨front, s, hS, rfl⟩
    rw [List.append_assoc, List.singleton_append,
      partsOf_append hS, partsOf_of_isSegment hName,
      List.dropLast_concat, partsOf_append hS]
    have hEmpty : stars ∉ partsOf [] := by decide
    simp [hEmpty]

/-
  A path without separators stays whole. If a part with a
  separator behind it is a pair of stars, the path is cut at the
  first of these. Otherwise it is cut behind its last separator.
-/
theorem splitRecursive_cuts_at_first
    (path : String) :
    ((∀ c ∈ path.toList, isSeparator c = false) →
      splitRecursive path = ⟨"", path, false⟩) ∧
    ("**" ∈ (parts path).dropLast →
      ∃ base separator rest,
        splitRecursive path = ⟨base, rest, true⟩ ∧
          path = base ++ "**" ++ String.singleton separator ++ rest ∧
          isSeparator separator = true ∧
          EndsPart base.toList ∧ "**" ∉ parts base) ∧
    ((∃ c ∈ path.toList, isSeparator c = true) →
      "**" ∉ (parts path).dropLast →
        ∃ base rest,
          splitRecursive path = ⟨base, rest, false⟩ ∧
            path = base ++ rest ∧
            base ≠ "" ∧ EndsPart base.toList ∧
            ∀ c ∈ rest.toList, isSeparator c = false) := by
  rw [mem_dropLast_parts_iff]
  rcases splitLast_spec path.toList with ⟨hWhole, hEnds, hName⟩
  rcases hSplit : splitLast path.toList with ⟨directory, name⟩
  rw [hSplit] at hWhole hEnds hName
  dsimp only at hWhole hEnds hName ⊢
  refine ⟨fun hPlain => ?_, fun hStars => ?_, fun hSome hNone => ?_⟩
  · have hNil : directory = [] := by
      apply hEnds.eq_nil
      intro c hC
      exact hPlain c (by rw [hWhole]; simp [hC])
    subst hNil
    unfold splitRecursive
    rw [hSplit]
  · have hSome : directory ≠ [] := by
      rintro rfl
      revert hStars
      decide
    rcases cutAtStars?_spec directory hEnds with ⟨-, hAbsent⟩ |
      ⟨before, s, after, hCut, hS, hDirectory, hBefore, hAbsent⟩
    · exact absurd hStars hAbsent
    · refine ⟨String.ofList before, s, String.ofList (after ++ name),
        ?_, ?_, hS, ?_, ?_⟩
      · rw [splitRecursive_of_splitLast hSplit hSome, hCut]
      · apply String.toList_injective
        rw [hWhole, hDirectory]
        simp [stars]
      · rwa [String.toList_ofList]
      · rwa [mem_parts_iff, String.toList_ofList]
  · have hSome : directory ≠ [] := by
      rintro rfl
      rcases hSome with ⟨c, hC, hSeparator⟩
      rw [hWhole, List.nil_append] at hC
      rw [hName c hC] at hSeparator
      cases hSeparator
    rcases cutAtStars?_spec directory hEnds with ⟨hCut, -⟩ |
      ⟨before, s, after, -, hS, hDirectory, hBefore, -⟩
    · refine ⟨String.ofList directory, String.ofList name, ?_, ?_,
        ?_, ?_, ?_⟩
      · rw [splitRecursive_of_splitLast hSplit hSome, hCut]
      · apply String.toList_injective
        rw [hWhole]
        simp
      · simpa using hSome
      · rwa [String.toList_ofList]
      · rwa [String.toList_ofList]
    · rw [hDirectory] at hNone
      exact absurd (mem_partsOf_stars hBefore hS after) hNone

/- Three stars are no pair, and the last part does not count. -/
theorem cuts_of_three_paths :
    splitRecursive "**" = ⟨"", "**", false⟩ ∧
    (∃ base separator rest,
      splitRecursive "***/a\\**/b/**/c" = ⟨base, rest, true⟩ ∧
        "***/a\\**/b/**/c" =
          base ++ "**" ++ String.singleton separator ++ rest ∧
        isSeparator separator = true ∧
        EndsPart base.toList ∧ "**" ∉ parts base) ∧
    ∃ base rest,
      splitRecursive "**x/**" = ⟨base, rest, false⟩ ∧
        "**x/**" = base ++ rest ∧
        base ≠ "" ∧ EndsPart base.toList ∧
        ∀ c ∈ rest.toList, isSeparator c = false :=
  ⟨(splitRecursive_cuts_at_first "**").1 (by simp [isSeparator]),
    (splitRecursive_cuts_at_first "***/a\\**/b/**/c").2.1 (by decide),
    (splitRecursive_cuts_at_first "**x/**").2.2
      ⟨'/', by decide, rfl⟩ (by decide)⟩

example :
    splitRecursive "***/a\\**/b/**/c" =
      ⟨"***/a\\", "b/**/c", true⟩ := by
  decide

end Path

end SymbolAtlas
