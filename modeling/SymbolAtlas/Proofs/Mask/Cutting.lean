import SymbolAtlas.Proofs.Mask.Meaning
import SymbolAtlas.Proofs.Path.Stretches

/-
  A mask cut into a directory and a rest.

  An anchored mask that starts with a stretch of plain names
  accepts what lies below these names and is accepted by its
  rest. Stars in between let the rest start behind any slash,
  as a mask does that is not anchored. Without stars the rest
  is one name, and then so is what it accepts.

  Key definitions:
    * `Mask.starsItems`

  Key theorems:
    * `Mask.exists_reads`
    * `Mask.accepted_stretch_iff`
-/

------------------------------------------------------------
-- Reading Without Classes
------------------------------------------------------------

namespace SymbolAtlas

namespace Mask

/- Only classes can be ill-formed. -/
theorem exists_reads
    {text : List Char}
    (hText : '[' ∉ text) :
    ∃ items, Reads text items := by
  fun_induction marks text with
  | case1 rest ih =>
      rcases ih (by simpa using hText) with ⟨items, hRest⟩
      exact ⟨_, .tree hRest⟩
  | case2 rest hNot ih =>
      rcases ih (by simpa using hText) with ⟨items, hRest⟩
      refine ⟨_, .run ?_ hRest⟩
      rintro ⟨more, rfl⟩
      exact hNot more rfl
  | case3 rest ih =>
      rcases ih (by simpa using hText) with ⟨items, hRest⟩
      exact ⟨_, .single hRest⟩
  | case4 rest ih => simp at hText
  | case5 rest hNot ih => simp at hText
  | case6 rest ih =>
      rcases ih (by simpa using hText) with ⟨items, hRest⟩
      exact ⟨_, .literal (by decide) hRest⟩
  | case7 rest ih =>
      rcases ih (by simpa using hText) with ⟨items, hRest⟩
      exact ⟨_, .literal (by decide) hRest⟩
  | case8 c rest hTree hStar hQuestion hBang hOpening hClosing hDash ih =>
      rw [List.mem_cons, not_or] at hText
      rcases ih hText.2 with ⟨items, hRest⟩
      refine ⟨_, .literal ?_ hRest⟩
      simp only [List.mem_cons, List.not_mem_nil, or_false, not_or]
      exact ⟨hStar, hQuestion, Ne.symm hText.1⟩
  | case9 => exact ⟨_, .nil⟩

/- Plain characters stand for themselves. -/
theorem reads_literals
    {front rest : List Char}
    {items : List Item}
    (hFront : ∀ c ∈ front, c ∉ ['*', '?', '['])
    (hRest : Reads rest items) :
    Reads (front ++ rest) (front.map Item.literal ++ items) := by
  induction front with
  | nil => exact hRest
  | cons c more ih =>
      rw [List.forall_mem_cons] at hFront
      exact .literal hFront.1 (ih hFront.2)

theorem covers_literals_iff
    {front text : List Char}
    {items : List Item} :
    Covers (front.map Item.literal ++ items) text ↔
      ∃ rest, text = front ++ rest ∧ Covers items rest := by
  induction front generalizing text with
  | nil => simp
  | cons c more ih =>
      rw [List.map_cons, List.cons_append, covers_cons_iff]
      constructor
      · rintro ⟨piece, others, rfl, hOthers, rfl⟩
        rcases ih.mp hOthers with ⟨rest, rfl, hRest⟩
        exact ⟨rest, rfl, hRest⟩
      · rintro ⟨rest, rfl, hRest⟩
        exact ⟨[c], more ++ rest, rfl, ih.mpr ⟨rest, rfl, hRest⟩,
          rfl⟩

/- A mask of one name accepts no slash. -/
theorem Reads.not_mem_of_covers
    {text path : List Char}
    {items : List Item}
    (hReads : Reads text items)
    (hClass : '[' ∉ text)
    (hSlash : '/' ∉ text)
    (hCovers : Covers items path) :
    '/' ∉ path := by
  induction hReads generalizing path with
  | nil =>
      rw [covers_nil_iff.mp hCovers]
      simp
  | tree _ _ => simp at hSlash
  | oneOf _ _ _ _ _ => simp at hClass
  | run _ _ ih =>
      rcases covers_cons_iff.mp hCovers with
        ⟨piece, rest, hPiece, hRest, rfl⟩
      have hLater :=
        ih (by simpa using hClass) (by simpa using hSlash) hRest
      have hFirst : '/' ∉ piece := hPiece
      simp [hFirst, hLater]
  | single _ ih =>
      rcases covers_cons_iff.mp hCovers with
        ⟨piece, rest, ⟨c, hC, rfl⟩, hRest, rfl⟩
      have hLater :=
        ih (by simpa using hClass) (by simpa using hSlash) hRest
      simp [Ne.symm hC, hLater]
  | literal _ _ ih =>
      rcases covers_cons_iff.mp hCovers with
        ⟨piece, rest, rfl, hRest, rfl⟩
      rw [List.mem_cons, not_or] at hClass hSlash
      have hLater := ih hClass.2 hSlash.2 hRest
      simp [hSlash.1, hLater]

end Mask

end SymbolAtlas

------------------------------------------------------------
-- Below the Names in Front
------------------------------------------------------------

namespace SymbolAtlas

namespace Mask

/- The item of the stars that a mask is cut at. -/
def starsItems (recursive : Bool) : List Item :=
  if recursive then [.tree] else []

theorem reads_stars
    (recursive : Bool)
    {rest : List Char}
    {items : List Item}
    (hRest : Reads rest items) :
    Reads (Path.starsOf recursive ++ rest)
      (starsItems recursive ++ items) := by
  cases recursive with
  | true => exact .tree hRest
  | false => exact hRest

/- Stars let what follows them start behind any slash. -/
theorem covers_tree_iff
    {items : List Item}
    {path : List Char}
    (hStart : path.head? ≠ some '/')
    (hLine : '\n' ∉ path) :
    Covers (.tree :: items) path ↔ Accepted false items path := by
  rw [covers_cons_iff]
  constructor
  · rintro ⟨piece, rest, rfl | ⟨front, -, -, rfl⟩, hRest, rfl⟩
    · exact Or.inl hRest
    · exact Or.inr ⟨rfl, front, rest, by simp, hRest⟩
  · rintro (hWhole | ⟨-, front, back, rfl, hBack⟩)
    · exact ⟨[], path, Or.inl rfl, hWhole, rfl⟩
    · refine ⟨front ++ ['/'], back,
        Or.inr ⟨front, ?_, ?_, rfl⟩, hBack, by simp⟩
      · rintro rfl
        exact hStart rfl
      · exact fun hMem => hLine (List.mem_append_left _ hMem)

/- A path that has no slash is accepted as a whole or not. -/
theorem accepted_of_not_mem_iff
    {items : List Item}
    {path : List Char}
    (hSlash : '/' ∉ path) :
    Accepted false items path ↔ Covers items path := by
  constructor
  · rintro (hWhole | ⟨-, front, back, rfl, -⟩)
    · exact hWhole
    · simp at hSlash
  · exact Or.inl

end Mask

namespace Path

/- A path of names has the names of a stretch in front of it. -/
theorem joined_eq_stretch_append_iff
    {chain front : List String}
    (hChain : ∀ name ∈ chain, '/' ∉ name.toList)
    (hFront : ∀ name ∈ front, '/' ∉ name.toList)
    (hSome : chain ≠ [])
    {rest : List Char} :
    (joined chain).toList = stretch front ++ rest ↔
      ∃ below, below ≠ [] ∧ chain = front ++ below ∧
        rest = (joined below).toList := by
  constructor
  · intro hText
    have hNames := names_stretch_append hFront (String.ofList rest)
    rw [String.toList_ofList, ← hText, String.ofList_toList,
      names_joined hChain hSome] at hNames
    refine ⟨names (String.ofList rest), names_ne_nil _, hNames, ?_⟩
    rw [joined_names, String.toList_ofList]
  · rintro ⟨below, hBelow, rfl, rfl⟩
    exact toList_joined_append front hBelow

end Path

namespace Mask

/- The rest of a mask is matched against names below. -/
theorem covers_below_iff
    {rest : List Char}
    {items : List Item}
    (hReads : Reads rest items)
    (hClass : '[' ∉ rest)
    {recursive : Bool}
    (hSingle : recursive = false → '/' ∉ rest)
    {below : List String}
    {name : String}
    (hNames : ∀ step ∈ below ++ [name], Disk.IsName step)
    (hLines : ∀ step ∈ below ++ [name], '\n' ∉ step.toList) :
    Covers (starsItems recursive ++ items)
        (Path.joined (below ++ [name])).toList ↔
      (below ≠ [] → recursive = true) ∧
        Accepted false items
          (Path.joined (below ++ [name])).toList := by
  cases recursive with
  | true =>
      have hLine : '\n' ∉ (Path.joined (below ++ [name])).toList := by
        intro hMem
        rcases Path.mem_toList_joined hMem with
          hSlash | ⟨step, hStep, hC⟩
        · cases hSlash
        · exact hLines step hStep hC
      have hStart :
          (Path.joined (below ++ [name])).toList.head? ≠
            some '/' := by
        have hRooted := Path.isRooted_joined_of_isName hNames
        rw [Path.isRooted, beq_eq_false_iff_ne] at hRooted
        exact hRooted
      have hCovers :
          Covers (.tree :: items)
              (Path.joined (below ++ [name])).toList ↔ _ :=
        covers_tree_iff hStart hLine
      simpa [starsItems] using hCovers
  | false =>
      have hPlain :
          below = [] ↔
            '/' ∉ (Path.joined (below ++ [name])).toList := by
        constructor
        · rintro rfl
          have hName := (hNames name (by simp)).2
          simpa [Path.joined] using hName
        · intro hSlash
          by_contra hSome
          rw [Path.joined_concat hSome] at hSlash
          simp at hSlash
      constructor
      · intro hCovers
        have hSlash :=
          hReads.not_mem_of_covers hClass (hSingle rfl) hCovers
        exact ⟨fun hSome => absurd (hPlain.mpr hSlash) hSome,
          Or.inl hCovers⟩
      · rintro ⟨hNone, hAccepted⟩
        have hBelow : below = [] := by
          by_contra hSome
          cases hNone hSome
        exact (accepted_of_not_mem_iff (hPlain.mp hBelow)).mp
          hAccepted

/-
  What a mask accepts that is cut behind a stretch of names:
  the paths below these names that its rest accepts, directly
  below them if no stars stand in between.
-/
theorem accepted_stretch_iff
    {rest : List Char}
    {items : List Item}
    (hReads : Reads rest items)
    (hClass : '[' ∉ rest)
    {recursive : Bool}
    (hSingle : recursive = false → '/' ∉ rest)
    {chain front : List String}
    (hChain : ∀ name ∈ chain, Disk.IsName name)
    (hLines : ∀ name ∈ chain, '\n' ∉ name.toList)
    (hFront : ∀ name ∈ front, '/' ∉ name.toList)
    (hSome : chain ≠ []) :
    Accepted true
        ((Path.stretch front).map Item.literal ++
          (starsItems recursive ++ items))
        (Path.joined chain).toList ↔
      ∃ below name,
        chain = front ++ below ++ [name] ∧
          (below ≠ [] → recursive = true) ∧
          Accepted false items
            (Path.joined (below ++ [name])).toList := by
  have hPlain : ∀ name ∈ chain, '/' ∉ name.toList :=
    fun name hName => (hChain name hName).2
  have hWhole :
      ∀ {items : List Item} {path : List Char},
        Accepted true items path ↔ Covers items path := by
    intro items path
    simp [Accepted]
  rw [hWhole, covers_literals_iff]
  simp only [Path.joined_eq_stretch_append_iff hPlain hFront hSome]
  constructor
  · rintro ⟨text, ⟨names, hNames, rfl, rfl⟩, hCovers⟩
    rcases List.eq_nil_or_concat names with rfl | ⟨below, name, rfl⟩
    · exact absurd rfl hNames
    · rw [List.concat_eq_append] at hCovers hChain hLines ⊢
      rw [List.forall_mem_append] at hChain hLines
      refine ⟨below, name, by simp, ?_⟩
      exact (covers_below_iff hReads hClass hSingle hChain.2
        hLines.2).mp hCovers
  · rintro ⟨below, name, rfl, hBelow⟩
    rw [List.append_assoc, List.forall_mem_append]
      at hChain hLines
    exact ⟨_, ⟨below ++ [name], by simp, by simp, rfl⟩,
      (covers_below_iff hReads hClass hSingle hChain.2
        hLines.2).mpr hBelow⟩

end Mask

end SymbolAtlas
