import SymbolAtlas.Proofs.Mask.Cutting
import SymbolAtlas.Proofs.Path.Normal

/-
  Masks and paths, segment by segment.

  A mask without `**/` and without slashes in its classes falls
  into segments at its slashes. Its last segments should be
  matched one by one with the last ones of a path. Stars and
  question marks never take a slash, so this is what happens,
  unless a class takes one: a negated class does if no member is
  a slash, and so does a range that runs over the slash or a
  class that a wildcard has closed.

  Key definitions:
    * `Mask.isAnchored`, `Mask.body`
    * `Mask.SlashesOutside`
    * `Mask.MatchesName`, `Mask.MatchesEnd`
    * `Mask.Strays`, a class takes a slash
    * `Mask.FromStart`

  Key theorems:
    * `Mask.covers_iff_keeps_or_strays`
    * `Mask.keeps_iff_forall₂`
    * `Mask.accepts_segments_unless_it_strays`
-/

------------------------------------------------------------
-- Segments of a Text
------------------------------------------------------------

namespace SymbolAtlas

namespace Path

theorem segments_of_not_mem
    {name : List Char}
    (hName : '/' ∉ name) :
    segments name = [name] := by
  apply List.splitOnP_eq_singleton
  intro c hC
  rw [beq_eq_false_iff_ne]
  rintro rfl
  exact hName hC

theorem segments_append_slash
    {name : List Char}
    (hName : '/' ∉ name)
    (rest : List Char) :
    segments (name ++ '/' :: rest) = name :: segments rest := by
  apply List.splitOnP_append_cons_of_forall_mem _ _ rfl
  intro c hC
  rw [beq_eq_false_iff_ne]
  rintro rfl
  exact hName hC

theorem segments_ne_nil
    (text : List Char) :
    segments text ≠ [] :=
  List.splitOn_ne_nil _ _

/- A text is a name, or a name with a slash and a text behind. -/
theorem segments_cases
    (text : List Char) :
    ('/' ∉ text ∧ segments text = [text]) ∨
      ∃ first rest,
        '/' ∉ first ∧ text = first ++ '/' :: rest ∧
          segments text = first :: segments rest := by
  by_cases hSlash : '/' ∈ text
  · rcases List.eq_append_cons_of_mem hSlash with
      ⟨first, rest, rfl, hFirst⟩
    exact Or.inr ⟨first, rest, hFirst, rfl,
      segments_append_slash hFirst rest⟩
  · exact Or.inl ⟨hSlash, segments_of_not_mem hSlash⟩

@[elab_as_elim]
theorem segments_induction
    {motive : List Char → Prop}
    (name : ∀ text, '/' ∉ text → motive text)
    (below :
      ∀ first rest, '/' ∉ first → motive rest →
        motive (first ++ '/' :: rest))
    (text : List Char) :
    motive text := by
  rcases segments_cases text with
    ⟨hText, -⟩ | ⟨first, rest, hFirst, rfl, -⟩
  · exact name text hText
  · exact below first rest hFirst
      (segments_induction name below rest)
termination_by text.length
decreasing_by
  simp_all
  omega

/- A slash parts the segments in front from those behind. -/
theorem segments_append
    (front back : List Char) :
    segments (front ++ '/' :: back) =
      segments front ++ segments back := by
  induction front using segments_induction with
  | name front hFront =>
      rw [segments_append_slash hFront, segments_of_not_mem hFront,
        List.singleton_append]
  | below first rest hFirst ih =>
      rw [List.append_assoc, List.cons_append,
        segments_append_slash hFirst, segments_append_slash hFirst,
        ih, List.cons_append]

/- The last segments are those of the text or behind a slash. -/
theorem exists_last_segments_iff
    {P : List (List Char) → Prop}
    (hSome : ¬ P [])
    (text : List Char) :
    (∃ front last, segments text = front ++ last ∧ P last) ↔
      P (segments text) ∨
        ∃ front back, text = front ++ '/' :: back ∧
          P (segments back) := by
  constructor
  · induction text using segments_induction with
    | name text hText =>
        rintro ⟨front, last, hSegments, hLast⟩
        cases front with
        | nil =>
            rw [List.nil_append] at hSegments
            rw [hSegments]
            exact Or.inl hLast
        | cons first more =>
            rw [segments_of_not_mem hText, List.cons_append,
              List.cons.injEq] at hSegments
            have hNone := List.nil_eq_append_iff.mp hSegments.2
            rw [hNone.2] at hLast
            exact absurd hLast hSome
    | below first rest hFirst ih =>
        rintro ⟨front, last, hSegments, hLast⟩
        cases front with
        | nil =>
            rw [List.nil_append] at hSegments
            rw [hSegments]
            exact Or.inl hLast
        | cons other more =>
            rw [segments_append_slash hFirst, List.cons_append,
              List.cons.injEq] at hSegments
            right
            rcases ih ⟨more, last, hSegments.2, hLast⟩ with
              hHere | ⟨before, back, rfl, hBack⟩
            · exact ⟨first, rest, rfl, hHere⟩
            · exact ⟨first ++ '/' :: before, back, by simp, hBack⟩
  · rintro (hWhole | ⟨front, back, rfl, hBack⟩)
    · exact ⟨[], segments text, rfl, hWhole⟩
    · exact ⟨segments front, segments back,
        segments_append front back, hBack⟩

end Path

end SymbolAtlas

------------------------------------------------------------
-- Pieces With and Without Slashes
------------------------------------------------------------

namespace SymbolAtlas

namespace Mask

/- The set of characters of an item that is a class. -/
def Item.set? : Item → Option CharSet
| .oneOf s => some s
| .manyOf s => some s
| _ => none

/- The piece has no slash, unless it is a slash of the mask. -/
def Item.Keeps (item : Item) (piece : List Char) : Prop :=
  item.Takes piece ∧ (item = .literal '/' ∨ '/' ∉ piece)

/- The text is covered, and no slash is taken but by a slash. -/
def Keeps : List Item → List Char → Prop :=
  CutBy Item.Keeps

/- The text is covered, and some class takes a slash. -/
def Strays (items : List Item) (text : List Char) : Prop :=
  ∃ before item after front piece back,
    items = before ++ item :: after ∧
      text = front ++ (piece ++ back) ∧
      Covers before front ∧ Covers after back ∧
      item.set?.isSome = true ∧ item.Takes piece ∧ '/' ∈ piece

theorem Keeps.covers
    {items : List Item}
    {text : List Char}
    (hKeeps : Keeps items text) :
    Covers items text := by
  rcases hKeeps with ⟨pieces, hPieces, hText⟩
  exact ⟨pieces, hPieces.imp fun _ _ hPiece => hPiece.1, hText⟩

theorem Strays.covers
    {items : List Item}
    {text : List Char}
    (hStrays : Strays items text) :
    Covers items text := by
  rcases hStrays with ⟨before, item, after, front, piece, back, rfl,
    rfl, hBefore, hAfter, -, hPiece, -⟩
  apply cutBy_append_iff.mpr
  refine ⟨front, piece ++ back, rfl, hBefore, ?_⟩
  apply cutBy_cons_iff.mpr
  exact ⟨piece, back, hPiece, hAfter, rfl⟩

/- What a class takes is made of its characters. -/
theorem Item.has_of_mem
    {item : Item}
    {s : CharSet}
    {piece : List Char}
    (hSet : item.set? = some s)
    (hTakes : item.Takes piece)
    {c : Char}
    (hMem : c ∈ piece) :
    s.Has c := by
  cases item with
  | oneOf set =>
      cases hSet
      rcases hTakes with ⟨other, hOther, rfl⟩
      rw [List.mem_singleton.mp hMem]
      exact hOther
  | manyOf set =>
      cases hSet
      exact hTakes c hMem
  | literal _ => cases hSet
  | single => cases hSet
  | run => cases hSet
  | tree => cases hSet

/- Where classes have no slash, none of them strays. -/
theorem not_strays
    {items : List Item}
    (hClasses :
      ∀ item ∈ items, ∀ s, item.set? = some s → ¬ s.Has '/')
    (text : List Char) :
    ¬ Strays items text := by
  rintro ⟨before, item, after, front, piece, back, rfl, -, -, -,
    hClass, hPiece, hSlash⟩
  rcases Option.isSome_iff_exists.mp hClass with ⟨s, hSet⟩
  exact hClasses item (by simp) s hSet
    (Item.has_of_mem hSet hPiece hSlash)

/- Besides slashes and `**/` only a class can take a slash. -/
theorem Item.isSome_set?_of_mem
    {item : Item}
    {piece : List Char}
    (hTree : item ≠ .tree)
    (hLiteral : item ≠ .literal '/')
    (hTakes : item.Takes piece)
    (hSlash : '/' ∈ piece) :
    item.set?.isSome = true := by
  cases item with
  | literal c =>
      have hPiece : piece = [c] := hTakes
      rw [hPiece, List.mem_singleton] at hSlash
      exact absurd (congrArg Item.literal hSlash.symm) hLiteral
  | single =>
      rcases hTakes with ⟨c, hC, rfl⟩
      exact absurd (List.mem_singleton.mp hSlash).symm hC
  | run => exact absurd hSlash hTakes
  | tree => exact absurd rfl hTree
  | oneOf s => rfl
  | manyOf s => rfl

/- What covers a text keeps to its slashes, or a class strays. -/
theorem covers_iff_keeps_or_strays
    {items : List Item}
    (hTree : .tree ∉ items)
    {text : List Char} :
    Covers items text ↔ Keeps items text ∨ Strays items text := by
  refine ⟨fun hCovers => ?_, fun hOr => ?_⟩
  · induction items generalizing text with
    | nil =>
        left
        exact cutBy_nil_iff.mpr (covers_nil_iff.mp hCovers)
    | cons item items ih =>
        rw [List.mem_cons, not_or] at hTree
        rcases covers_cons_iff.mp hCovers with
          ⟨piece, rest, hPiece, hRest, rfl⟩
        rcases ih hTree.2 hRest with hKeeps |
          ⟨before, stray, after, front, cross, back, rfl, rfl,
            hBefore, hAfter, hStray⟩
        · by_cases hKept : item = .literal '/' ∨ '/' ∉ piece
          · left
            apply cutBy_cons_iff.mpr
            exact ⟨piece, rest, ⟨hPiece, hKept⟩, hKeeps, rfl⟩
          · right
            rw [not_or, not_not] at hKept
            have hClass :=
              Item.isSome_set?_of_mem (Ne.symm hTree.1) hKept.1
                hPiece hKept.2
            exact ⟨[], item, items, [], piece, rest, rfl, rfl,
              covers_nil_iff.mpr rfl, hRest, hClass, hPiece,
              hKept.2⟩
        · right
          refine ⟨item :: before, stray, after, piece ++ front,
            cross, back, rfl, by simp, ?_, hAfter, hStray⟩
          rw [covers_cons_iff]
          exact ⟨piece, front, hPiece, hBefore, rfl⟩
  · rcases hOr with hKeeps | hStrays
    · exact hKeeps.covers
    · exact hStrays.covers

/- Items without a slash keep to texts without a slash. -/
theorem keeps_iff_of_no_slash
    {items : List Item}
    (hItems : .literal '/' ∉ items)
    {text : List Char} :
    Keeps items text ↔ Covers items text ∧ '/' ∉ text := by
  induction items generalizing text with
  | nil =>
      rw [Keeps, cutBy_nil_iff, covers_nil_iff]
      constructor
      · rintro rfl
        exact ⟨rfl, by simp⟩
      · exact And.left
  | cons item items ih =>
      rw [List.mem_cons, not_or] at hItems
      rw [Keeps, cutBy_cons_iff, covers_cons_iff]
      constructor
      · rintro ⟨piece, rest, ⟨hPiece, hKept⟩, hRest, rfl⟩
        have hLater := (ih hItems.2).mp hRest
        have hClear := hKept.resolve_left (Ne.symm hItems.1)
        exact ⟨⟨piece, rest, hPiece, hLater.1, rfl⟩,
          by simp [hClear, hLater.2]⟩
      · rintro ⟨⟨piece, rest, hPiece, hRest, rfl⟩, hSlash⟩
        rw [List.mem_append, not_or] at hSlash
        exact ⟨piece, rest, ⟨hPiece, Or.inr hSlash.1⟩,
          (ih hItems.2).mpr ⟨hRest, hSlash.2⟩, rfl⟩

/- A slash of the mask is met by the first slash of the text. -/
theorem keeps_slash_iff
    {first second : List Item}
    (hFirst : .literal '/' ∉ first)
    {text : List Char} :
    Keeps (first ++ .literal '/' :: second) text ↔
      ∃ front back,
        text = front ++ '/' :: back ∧
          (Covers first front ∧ '/' ∉ front) ∧
          Keeps second back := by
  rw [Keeps, cutBy_append_iff]
  constructor
  · rintro ⟨front, rest, rfl, hFront, hRest⟩
    rcases cutBy_cons_iff.mp hRest with
      ⟨piece, back, ⟨hPiece, -⟩, hBack, rfl⟩
    have hSlash : piece = ['/'] := hPiece
    exact ⟨front, back, by rw [hSlash]; rfl,
      (keeps_iff_of_no_slash hFirst).mp hFront, hBack⟩
  · rintro ⟨front, back, rfl, hFront, hBack⟩
    refine ⟨front, '/' :: back, rfl,
      (keeps_iff_of_no_slash hFirst).mpr hFront, ?_⟩
    apply cutBy_cons_iff.mpr
    exact ⟨['/'], back, ⟨rfl, Or.inl rfl⟩, hBack, rfl⟩

end Mask

end SymbolAtlas

------------------------------------------------------------
-- Segments of a Mask
------------------------------------------------------------

namespace SymbolAtlas

namespace Mask

/- Marks end at a slash, unless it follows two stars. -/
theorem marks_append_slash
    {front : List Char}
    (hStars : ¬ ['*', '*'] <:+ front)
    (rest : List Char) :
    marks (front ++ '/' :: rest) =
      marks front ++ .plain '/' :: marks rest := by
  have hSlash : marks ('/' :: rest) = .plain '/' :: marks rest :=
    marks_plain (by decide) rest
  have hLater
      (first : List Char)
      {more : List Char}
      (hNot : ¬ ['*', '*'] <:+ first ++ more) :
      ¬ ['*', '*'] <:+ more :=
    fun hSuffix =>
      hNot (hSuffix.trans (List.suffix_append first more))
  fun_induction marks front with
  | case1 more ih =>
      have hMore := ih (hLater ['*', '*', '/'] hStars)
      rw [List.cons_append, List.cons_append, List.cons_append,
        marks, hMore, List.cons_append]
  | case2 more hTree ih =>
      have hMore := ih (hLater ['*'] hStars)
      rw [List.cons_append, marks_star, hMore, List.cons_append]
      rintro ⟨tail, hTail⟩
      cases more with
      | nil => cases hTail
      | cons c others =>
          cases others with
          | nil =>
              cases hTail
              exact hStars List.suffix_rfl
          | cons other others =>
              cases hTail
              exact hTree others rfl
  | case3 more ih | case6 more ih | case7 more ih =>
      have hMore := ih (hLater [_] hStars)
      rw [List.cons_append, marks, hMore, List.cons_append]
  | case4 more ih =>
      have hMore := ih (hLater ['[', '!'] hStars)
      rw [List.cons_append, List.cons_append, marks, hMore,
        List.cons_append]
  | case5 more hBang ih =>
      have hMore := ih (hLater ['['] hStars)
      rw [List.cons_append, marks_opening, hMore, List.cons_append]
      cases more with
      | nil => simp
      | cons c others =>
          rintro hFirst
          cases hFirst
          exact hBang others rfl
  | case8 c more hTree hStar hQuestion hBang hOpening hClosing hDash ih =>
      have hMore := ih (hLater [c] hStars)
      rw [List.cons_append, marks_plain, hMore, List.cons_append]
      simp only [List.mem_cons, List.not_mem_nil, or_false, not_or]
      exact ⟨hStar, hQuestion, hOpening, hClosing, hDash⟩
  | case9 => exact hSlash

/- Marks are made of what is in the text. -/
theorem mem_text_of_mem_marks
    (text : List Char) :
    (.tree ∈ marks text → ['*', '*', '/'] <:+: text) ∧
      (.plain '/' ∈ marks text → '/' ∈ text) := by
  fun_induction marks text with
  | case1 more ih =>
      exact ⟨fun _ => ⟨[], more, rfl⟩, fun _ => by simp⟩
  | case2 more _ ih | case5 more _ ih =>
      exact ⟨by simpa using fun hTree => List.infix_cons (ih.1 hTree),
        by simpa using ih.2⟩
  | case3 more ih | case6 more ih | case7 more ih =>
      exact ⟨by simpa using fun hTree => List.infix_cons (ih.1 hTree),
        by simpa using ih.2⟩
  | case4 more ih =>
      refine ⟨?_, by simpa using ih.2⟩
      simpa using fun hTree =>
        List.infix_cons (List.infix_cons (ih.1 hTree))
  | case8 c more _ _ _ _ _ _ _ ih =>
      refine ⟨?_, by simpa using Or.imp_right ih.2⟩
      simpa using fun hTree => List.infix_cons (ih.1 hTree)
  | case9 => simp

/- Items are read from marks of their kind. -/
theorem mem_marks_of_mem_items
    {reading : Reading}
    {source : List Mark}
    {items : List Item}
    (hItems : readItems reading source = some items) :
    (.tree ∈ items → .tree ∈ source) ∧
      (.literal '/' ∈ items → .plain '/' ∈ source) := by
  fun_induction readItems reading source generalizing items with
  | case1 =>
      cases hItems
      simp
  | case2 => cases hItems
  | case3 rest ih =>
      rcases Option.map_eq_some_iff.mp hItems with
        ⟨more, hMore, rfl⟩
      simpa using (ih hMore).2
  | case8 c rest ih =>
      rcases Option.map_eq_some_iff.mp hItems with
        ⟨more, hMore, rfl⟩
      simpa using (ih hMore).imp_right Or.imp_right
  | case9 negated rest ih => simpa using ih hItems
  | case10 => cases hItems
  | case11 negated draft mark rest next hStep ih =>
      exact (ih hItems).imp (List.mem_cons_of_mem _ ∘ ·)
        (List.mem_cons_of_mem _ ∘ ·)
  | case12 negated draft mark rest ranges repeated hStep ih =>
      rcases Option.map_eq_some_iff.mp hItems with
        ⟨more, hMore, rfl⟩
      have hLater := (ih hMore).imp (List.mem_cons_of_mem mark ∘ ·)
        (List.mem_cons_of_mem mark ∘ ·)
      unfold classItem
      cases repeated <;> simpa using hLater
  | _ rest ih =>
      rcases Option.map_eq_some_iff.mp hItems with
        ⟨more, hMore, rfl⟩
      simpa using ih hMore

/- What is read up to some place is read on from there. -/
theorem readItems_append
    {reading : Reading}
    {front : List Mark}
    {row : List Item}
    (hFront : readItems reading front = some row)
    (back : List Mark) :
    readItems reading (front ++ back) =
      (readItems .outside back).map (row ++ ·) := by
  fun_induction readItems reading front generalizing row with
  | case1 =>
      cases hFront
      simp
  | case2 => cases hFront
  | case9 negated rest ih =>
      rw [List.cons_append, readItems]
      exact ih hFront
  | case10 => cases hFront
  | case11 negated draft mark rest next hStep ih =>
      rw [List.cons_append, readItems, hStep]
      exact ih hFront
  | case12 negated draft mark rest ranges repeated hStep ih =>
      rcases Option.map_eq_some_iff.mp hFront with
        ⟨more, hMore, rfl⟩
      rw [List.cons_append, readItems, hStep]
      dsimp only
      rw [ih hMore, Option.map_map]
      rfl
  | case8 c rest ih =>
      rcases Option.map_eq_some_iff.mp hFront with
        ⟨more, hMore, rfl⟩
      rw [List.cons_append, readItems, ih hMore, Option.map_map]
      rfl
  | _ rest ih =>
      rcases Option.map_eq_some_iff.mp hFront with
        ⟨more, hMore, rfl⟩
      rw [List.cons_append, readItems, ih hMore, Option.map_map]
      rfl

/- No class is open where a slash of the text stands. -/
def SlashesOutside (text : List Char) : Prop :=
  ∀ n < text.length,
    text[n]? = some '/' → (items? (text.take n)).isSome = true

instance
    (text : List Char) :
    Decidable (SlashesOutside text) :=
  inferInstanceAs
    (Decidable (∀ n < text.length,
      text[n]? = some '/' → (items? (text.take n)).isSome = true))

theorem SlashesOutside.exists_row
    {front back : List Char}
    (hSlashes : SlashesOutside (front ++ '/' :: back)) :
    ∃ row, items? front = some row := by
  rw [← Option.isSome_iff_exists]
  simpa using hSlashes front.length (by simp) (by simp)

/- A mask is read up to a slash, and then from behind it. -/
theorem items?_append_slash
    {front : List Char}
    {row : List Item}
    (hStars : ¬ ['*', '*'] <:+ front)
    (hRow : items? front = some row)
    (rest : List Char) :
    items? (front ++ '/' :: rest) =
      (items? rest).map (row ++ .literal '/' :: ·) := by
  unfold items? at hRow ⊢
  rw [marks_append_slash hStars, readItems_append hRow, readItems,
    Option.map_map]
  rfl

theorem SlashesOutside.behind
    {front rest : List Char}
    (hSlashes : SlashesOutside (front ++ '/' :: rest))
    (hStars : ¬ ['*', '*'] <:+ front) :
    SlashesOutside rest := by
  intro n hLength hSlash
  rcases hSlashes.exists_row with ⟨row, hRow⟩
  have hPlace :
      (front ++ '/' :: rest)[front.length + (n + 1)]? =
        some '/' := by
    rw [List.getElem?_append_right (Nat.le_add_right _ _),
      Nat.add_sub_cancel_left, List.getElem?_cons_succ]
    exact hSlash
  have hBehind := hSlashes _ (by simp; omega) hPlace
  rw [List.take_length_add_append, List.take_succ_cons,
    items?_append_slash hStars hRow, Option.isSome_map] at hBehind
  exact hBehind

/- A name of a path, matched by a segment of a mask. -/
def MatchesName (mask name : List Char) : Prop :=
  ∃ items, items? mask = some items ∧ Covers items name

/-
  What keeps to the slashes of a mask is matched segment by
  segment. The induction is on the segments of the mask: up to
  the first slash they are read alone, and the first slash of
  the text is the one that it meets.
-/
theorem keeps_iff_forall₂
    {mask : List Char}
    {items : List Item}
    (hItems : items? mask = some items)
    (hTrees : ¬ ['*', '*', '/'] <:+: mask)
    (hSlashes : SlashesOutside mask)
    {text : List Char} :
    Keeps items text ↔
      List.Forall₂ MatchesName (Path.segments mask)
        (Path.segments text) := by
  induction mask using Path.segments_induction generalizing items
    text with
  | name mask hMask =>
      have hPlain : .literal '/' ∉ items := fun hMem =>
        hMask ((mem_text_of_mem_marks mask).2
          ((mem_marks_of_mem_items hItems).2 hMem))
      rw [keeps_iff_of_no_slash hPlain,
        Path.segments_of_not_mem hMask]
      constructor
      · rintro ⟨hCovers, hText⟩
        rw [Path.segments_of_not_mem hText]
        exact .cons ⟨items, hItems, hCovers⟩ .nil
      · intro hNames
        rcases Path.segments_cases text with
          ⟨hText, hSegments⟩ | ⟨first, rest, -, -, hSegments⟩
        · rw [hSegments] at hNames
          rcases hNames with _ | ⟨⟨row, hRow, hCovers⟩, -⟩
          cases hItems.symm.trans hRow
          exact ⟨hCovers, hText⟩
        · rw [hSegments] at hNames
          rcases hNames with _ | ⟨-, hNone⟩
          exact absurd (List.forall₂_nil_left_iff.mp hNone)
            (Path.segments_ne_nil rest)
  | below first rest hFirst ih =>
      rcases hSlashes.exists_row with ⟨row, hRow⟩
      have hStars : ¬ ['*', '*'] <:+ first := by
        rintro ⟨front, rfl⟩
        exact hTrees ⟨front, rest, by simp⟩
      have hRead := items?_append_slash hStars hRow rest
      rw [hItems] at hRead
      rcases Option.map_eq_some_iff.mp hRead.symm with
        ⟨others, hOthers, rfl⟩
      have hPlain : .literal '/' ∉ row := fun hMem =>
        hFirst ((mem_text_of_mem_marks first).2
          ((mem_marks_of_mem_items hRow).2 hMem))
      have hRest :
          ∀ {back}, Keeps others back ↔
            List.Forall₂ MatchesName (Path.segments rest)
              (Path.segments back) := by
        apply ih hOthers
        · exact fun hInfix => hTrees (hInfix.trans
            ⟨first ++ ['/'], [], by simp⟩)
        · exact hSlashes.behind hStars
      rw [keeps_slash_iff hPlain, Path.segments_append_slash hFirst]
      constructor
      · rintro ⟨front, back, rfl, ⟨hCovers, hFront⟩, hBack⟩
        rw [Path.segments_append_slash hFront]
        exact .cons ⟨row, hRow, hCovers⟩ (hRest.mp hBack)
      · intro hNames
        rcases Path.segments_cases text with
          ⟨-, hSegments⟩ | ⟨front, back, hFront, rfl, hSegments⟩
        · rw [hSegments] at hNames
          rcases hNames with _ | ⟨-, hNone⟩
          exact absurd (List.forall₂_nil_right_iff.mp hNone)
            (Path.segments_ne_nil rest)
        · rw [hSegments] at hNames
          rcases hNames with _ | ⟨⟨alone, hAlone, hCovers⟩, hBack⟩
          cases hRow.symm.trans hAlone
          exact ⟨front, back, rfl, ⟨hCovers, hFront⟩,
            hRest.mpr hBack⟩

end Mask

end SymbolAtlas

------------------------------------------------------------
-- Matching Segment by Segment
------------------------------------------------------------

namespace SymbolAtlas

namespace Mask

/- The mask text starts where the path does. -/
def isAnchored : List Char → Bool
| '.' :: '/' :: _ => true
| _ => false

/- The mask text without its anchor. -/
def body : List Char → List Char
| '.' :: '/' :: rest => rest
| text => text

/- The characters of a text that has forward slashes only. -/
def slashed (text : String) : List Char :=
  (Path.withSlashes text).toList

/-
  The segments of a mask match the last names of a path, and all
  of them if the mask is anchored.
-/
def MatchesEnd
    (anchored : Bool)
    (mask path : List Char) : Prop :=
  ∃ front last,
    Path.segments path = front ++ last ∧
      (anchored = true → front = []) ∧
      List.Forall₂ MatchesName (Path.segments mask) last

/-
  So it is with the whole path or, unless the mask is anchored,
  with what follows one of its slashes.
-/
def FromStart
    (anchored : Bool)
    (P : List Char → Prop)
    (path : List Char) : Prop :=
  P path ∨
    (anchored = false ∧
      ∃ front back, path = front ++ '/' :: back ∧ P back)

theorem fromStart_or_iff
    {anchored : Bool}
    {P Q : List Char → Prop}
    {path : List Char} :
    FromStart anchored (fun text => P text ∨ Q text) path ↔
      FromStart anchored P path ∨ FromStart anchored Q path := by
  unfold FromStart
  constructor
  · rintro ((hP | hQ) | ⟨hFloats, front, back, hPath, hP | hQ⟩)
    · exact Or.inl (Or.inl hP)
    · exact Or.inr (Or.inl hQ)
    · exact Or.inl (Or.inr ⟨hFloats, front, back, hPath, hP⟩)
    · exact Or.inr (Or.inr ⟨hFloats, front, back, hPath, hQ⟩)
  · rintro ((hP | ⟨hFloats, front, back, hPath, hP⟩) |
      (hQ | ⟨hFloats, front, back, hPath, hQ⟩))
    · exact Or.inl (Or.inl hP)
    · exact Or.inr ⟨hFloats, front, back, hPath, Or.inl hP⟩
    · exact Or.inl (Or.inr hQ)
    · exact Or.inr ⟨hFloats, front, back, hPath, Or.inr hQ⟩

/- The last names of a path are those from one of its starts. -/
theorem matchesEnd_iff
    {anchored : Bool}
    {mask path : List Char} :
    MatchesEnd anchored mask path ↔
      FromStart anchored
        (fun text =>
          List.Forall₂ MatchesName (Path.segments mask)
            (Path.segments text)) path := by
  have hSome :
      ¬ List.Forall₂ MatchesName (Path.segments mask) [] :=
    fun hNone =>
      Path.segments_ne_nil mask
        (List.forall₂_nil_right_iff.mp hNone)
  unfold MatchesEnd FromStart
  cases anchored with
  | true => simp
  | false => simpa using Path.exists_last_segments_iff hSome path

theorem body_suffix
    (text : List Char) :
    body text <:+ text := by
  unfold body
  split
  · next rest => exact ⟨['.', '/'], rfl⟩
  · exact List.suffix_rfl

/- A mask accepts what the items of its body say. -/
theorem exists_items_of_compile
    {text : String}
    {mask : Mask}
    (hMask : compile text = .ok mask) :
    ∃ items,
      items? (body (slashed text)) = some items ∧
        ∀ path,
          mask.accepts path = true ↔
            FromStart (isAnchored (slashed text)) (Covers items)
              (slashed path) := by
  unfold compile at hMask
  split at hMask
  · next pattern hPattern =>
      cases hMask
      unfold accepts slashed
      generalize (Path.withSlashes text).toList = source
        at hPattern ⊢
      fun_cases pattern? source with
      | case1 =>
          cases hPattern
          refine ⟨[.run], rfl, fun path => ?_⟩
          exact iff_of_true rfl (accepted_run _)
      | case2 rest =>
          rcases Option.map_eq_some_iff.mp hPattern with
            ⟨items, hItems, rfl⟩
          exact ⟨items, hItems, fun _ => acceptsText_anchored_iff⟩
      | case3 _ hStar hDot =>
          have hRead :
              pattern? source = (items? source).map .floating := by
            rw [pattern?]
            · exact hStar
            · exact hDot
          rw [hRead] at hPattern
          rcases Option.map_eq_some_iff.mp hPattern with
            ⟨items, hItems, rfl⟩
          have hBody : body source = source := by
            unfold body
            split
            · next rest => exact absurd rfl (hDot rest)
            · rfl
          have hFloating : isAnchored source = false := by
            unfold isAnchored
            split
            · next rest => exact absurd rfl (hDot rest)
            · rfl
          rw [hBody, hFloating]
          exact ⟨items, hItems, fun _ => acceptsText_floating_iff⟩
  · cases hMask

/-
  Masks match paths segment by segment, unless a class takes a
  slash. If no class of the mask can take one, the mask accepts
  the paths whose last segments are matched by its own ones, and
  no others.
-/
theorem accepts_segments_unless_it_strays
    {text : String}
    {mask : Mask}
    (hMask : compile text = .ok mask)
    (hTrees : ¬ ['*', '*', '/'] <:+: slashed text)
    (hSlashes : SlashesOutside (body (slashed text))) :
    ∃ items,
      items? (body (slashed text)) = some items ∧
        (∀ path,
          mask.accepts path = true ↔
            MatchesEnd (isAnchored (slashed text))
                (body (slashed text)) (slashed path) ∨
              FromStart (isAnchored (slashed text)) (Strays items)
                (slashed path)) ∧
        ((∀ item ∈ items, ∀ s,
            item.set? = some s → ¬ s.Has '/') →
          ∀ path,
            mask.accepts path = true ↔
              MatchesEnd (isAnchored (slashed text))
                (body (slashed text)) (slashed path)) := by
  rcases exists_items_of_compile hMask with
    ⟨items, hItems, hAccepts⟩
  have hBodyTrees : ¬ ['*', '*', '/'] <:+: body (slashed text) :=
    fun hInfix => hTrees (hInfix.trans (body_suffix _).isInfix)
  have hTree : .tree ∉ items := fun hMem =>
    hBodyTrees ((mem_text_of_mem_marks _).1
      ((mem_marks_of_mem_items hItems).1 hMem))
  have hCovers :
      Covers items = fun path =>
        List.Forall₂ MatchesName
            (Path.segments (body (slashed text)))
            (Path.segments path) ∨
          Strays items path := by
    funext path
    rw [covers_iff_keeps_or_strays hTree,
      keeps_iff_forall₂ hItems hBodyTrees hSlashes]
  have hAll :
      ∀ path,
        mask.accepts path = true ↔
          MatchesEnd (isAnchored (slashed text))
              (body (slashed text)) (slashed path) ∨
            FromStart (isAnchored (slashed text)) (Strays items)
              (slashed path) := by
    intro path
    rw [hAccepts, hCovers, fromStart_or_iff, matchesEnd_iff]
  refine ⟨items, hItems, hAll, fun hClasses path => ?_⟩
  rw [hAll, or_iff_left]
  rintro (hStrays | ⟨-, front, back, -, hStrays⟩)
  · exact not_strays hClasses _ hStrays
  · exact not_strays hClasses _ hStrays

/- A mask with a class that stands for anything but one letter. -/
def negatedItems : List Item :=
  [.literal 'x', .literal '/', .literal 'a',
    .oneOf ⟨true, [⟨'b', 'b'⟩]⟩, .literal 'c']

/-
  The negated class takes the slash: the last segments of the
  path are not matched, and still the mask accepts it.
-/
theorem negated_class_strays :
    compile "x/a[!b]c" =
        .ok ⟨"x/a[!b]c", .floating negatedItems⟩ ∧
      (Mask.mk "x/a[!b]c" (.floating negatedItems)).accepts
          "x/a/c" = true ∧
      ¬ MatchesEnd false (slashed "x/a[!b]c") (slashed "x/a/c") ∧
      FromStart false (Strays negatedItems) (slashed "x/a/c") := by
  have hText :
      slashed "x/a[!b]c" =
        ['x', '/', 'a', '[', '!', 'b', ']', 'c'] := by
    decide
  have hMask :
      compile "x/a[!b]c" =
        .ok ⟨"x/a[!b]c", .floating negatedItems⟩ := by
    apply compile_of_pattern?
    decide
  have hAccepts :
      (Mask.mk "x/a[!b]c" (.floating negatedItems)).accepts
        "x/a/c" = true := by
    decide
  have hNot :
      ¬ MatchesEnd false (slashed "x/a[!b]c")
        (slashed "x/a/c") := by
    rintro ⟨front, last, hPath, -, hNames⟩
    have hMaskSegments :
        Path.segments (slashed "x/a[!b]c") =
          [['x'], ['a', '[', '!', 'b', ']', 'c']] := by
      rw [hText]
      decide
    have hPathSegments :
        Path.segments (slashed "x/a/c") =
          [['x'], ['a'], ['c']] := by
      decide
    rw [hMaskSegments] at hNames
    rw [hPathSegments] at hPath
    rcases hNames with _ | ⟨-, _ | ⟨⟨items, hItems, hCovers⟩, ⟨⟩⟩⟩
    have hCut : [['x']] ++ [['a'], ['c']] = front ++ _ := hPath
    cases List.append_inj_right' hCut rfl
    have hRow :
        items? ['a', '[', '!', 'b', ']', 'c'] =
          some [.literal 'a', .oneOf ⟨true, [⟨'b', 'b'⟩]⟩,
            .literal 'c'] := by
      decide
    cases hRow.symm.trans hItems
    rw [← acceptsAll_iff_covers] at hCovers
    exact absurd hCovers (by decide)
  have hTrees : ¬ ['*', '*', '/'] <:+: slashed "x/a[!b]c" := by
    rw [hText]
    decide
  have hSlashes : SlashesOutside (body (slashed "x/a[!b]c")) := by
    rw [hText]
    decide
  have hRead :
      items? (body (slashed "x/a[!b]c")) = some negatedItems := by
    rw [hText]
    decide
  rcases accepts_segments_unless_it_strays hMask hTrees hSlashes
    with ⟨items, hItems, hAll, -⟩
  cases hRead.symm.trans hItems
  exact ⟨hMask, hAccepts, hNot,
    ((hAll _).mp hAccepts).resolve_left hNot⟩

end Mask

end SymbolAtlas
