import Mathlib.Data.List.Forall2
import SymbolAtlas.Mask.Basic

/-
  The meaning of a mask.

  The text of a mask is read from left to right as items, and
  a path is accepted when it can be cut into pieces, one for
  each item. Both are said here without the reader and without
  the search for what an item can leave of a text.

  Key definitions:
    * `Mask.Item.Takes`, the pieces that an item stands for
    * `Mask.Covers`, a text cut into pieces
    * `Mask.Reads`, the items of a text
    * `Mask.Says`, `Mask.Accepted`

  Key theorems:
    * `Mask.acceptsAll_iff_covers`
    * `Mask.items?_of_reads`
    * `Mask.compile_accepts_what_it_says`
-/

------------------------------------------------------------
-- Pieces of a Text
------------------------------------------------------------

namespace SymbolAtlas

namespace Mask

/- The character is in a range of the set, or in none. -/
def CharSet.Has (s : CharSet) (c : Char) : Prop :=
  (∃ range ∈ s.ranges, range.first ≤ c ∧ c ≤ range.last) ↔
    s.negated = false

/- The pieces of a text that an item stands for. -/
def Item.Takes : Item → List Char → Prop
| .literal c, piece => piece = [c]
| .single, piece => ∃ c, c ≠ '/' ∧ piece = [c]
| .run, piece => '/' ∉ piece
| .tree, piece =>
    piece = [] ∨
      ∃ front, front ≠ [] ∧ '\n' ∉ front ∧ piece = front ++ ['/']
| .oneOf s, piece => ∃ c, s.Has c ∧ piece = [c]
| .manyOf s, piece => ∀ c ∈ piece, s.Has c

/- The text is a row of pieces, one for each item. -/
def Covers (items : List Item) (text : List Char) : Prop :=
  ∃ pieces,
    List.Forall₂ Item.Takes items pieces ∧ pieces.flatten = text

theorem CharSet.contains_iff_has
    (s : CharSet)
    (c : Char) :
    s.contains c = true ↔ s.Has c := by
  have hAny :
      s.ranges.any (·.contains c) = true ↔
        ∃ range ∈ s.ranges, range.first ≤ c ∧ c ≤ range.last := by
    simp [CharRange.contains]
  unfold contains Has
  rw [← hAny]
  cases s.negated <;> simp

theorem mem_restsOfOne_iff
    {p : Char → Bool}
    {text rest : List Char} :
    rest ∈ restsOfOne p text ↔
      ∃ c, p c = true ∧ text = [c] ++ rest := by
  cases text with
  | nil => simp [restsOfOne]
  | cons first others =>
      rw [restsOfOne]
      constructor
      · intro hRest
        split at hRest
        · next hFirst =>
            rw [List.mem_singleton] at hRest
            exact ⟨first, hFirst, by rw [hRest]; rfl⟩
        · cases hRest
      · rintro ⟨c, hC, hText⟩
        cases hText
        rw [if_pos hC]
        exact List.mem_singleton.mpr rfl

theorem mem_restsOfRun_iff
    {p : Char → Bool}
    {text rest : List Char} :
    rest ∈ restsOfRun p text ↔
      ∃ piece, (∀ c ∈ piece, p c = true) ∧
        text = piece ++ rest := by
  induction text with
  | nil =>
      simp only [restsOfRun, List.mem_singleton]
      constructor
      · rintro rfl
        exact ⟨[], by simp, rfl⟩
      · rintro ⟨piece, -, hText⟩
        exact (List.append_eq_nil_iff.mp hText.symm).2
  | cons first others ih =>
      unfold restsOfRun
      rw [List.mem_cons]
      constructor
      · rintro (rfl | hRest)
        · exact ⟨[], by simp, rfl⟩
        · split at hRest
          · next hFirst =>
              rcases ih.mp hRest with ⟨piece, hPiece, rfl⟩
              refine ⟨first :: piece, ?_, rfl⟩
              simpa [hFirst] using hPiece
          · cases hRest
      · rintro ⟨piece, hPiece, hText⟩
        cases piece with
        | nil => exact Or.inl hText.symm
        | cons c more =>
            rw [List.forall_mem_cons] at hPiece
            cases hText
            rw [if_pos hPiece.1]
            exact Or.inr (ih.mpr ⟨more, hPiece.2, rfl⟩)

theorem mem_restsAfterSlash_iff
    {text rest : List Char} :
    rest ∈ restsAfterSlash text ↔
      ∃ front, '\n' ∉ front ∧ text = front ++ '/' :: rest := by
  induction text with
  | nil => simp [restsAfterSlash]
  | cons first others ih =>
      unfold restsAfterSlash
      constructor
      · intro hRest
        split at hRest
        · next hSlash =>
            rcases List.mem_cons.mp hRest with rfl | hLater
            · exact ⟨[], by simp, by rw [hSlash]; rfl⟩
            · rcases ih.mp hLater with ⟨front, hFront, rfl⟩
              refine ⟨first :: front, ?_, rfl⟩
              simp [hSlash, hFront]
        · split at hRest
          · cases hRest
          · next hLine =>
              rcases ih.mp hRest with ⟨front, hFront, rfl⟩
              refine ⟨first :: front, ?_, rfl⟩
              simpa [hFront] using Ne.symm hLine
      · rintro ⟨front, hFront, hText⟩
        cases front with
        | nil =>
            cases hText
            rw [if_pos rfl]
            exact List.mem_cons_self
        | cons c more =>
            rw [List.mem_cons, not_or] at hFront
            cases hText
            have hLater : rest ∈ restsAfterSlash (more ++ '/' :: rest) :=
              ih.mpr ⟨more, hFront.2, rfl⟩
            split
            · exact List.mem_cons_of_mem _ hLater
            · rw [if_neg (Ne.symm hFront.1)]
              exact hLater

/- The piece that an item takes does not depend on the rest. -/
theorem Item.mem_rests_iff
    {item : Item}
    {text rest : List Char} :
    rest ∈ item.rests text ↔
      ∃ piece, item.Takes piece ∧ text = piece ++ rest := by
  cases item with
  | literal c =>
      simp [rests, Takes, mem_restsOfOne_iff]
  | single =>
      simp only [rests, Takes, mem_restsOfOne_iff, isPlain]
      constructor
      · rintro ⟨c, hC, hText⟩
        exact ⟨[c], ⟨c, by simpa using hC, rfl⟩, hText⟩
      · rintro ⟨piece, ⟨c, hC, rfl⟩, hText⟩
        exact ⟨c, by simpa using hC, hText⟩
  | run =>
      simp only [rests, Takes, mem_restsOfRun_iff, isPlain]
      have hPlain :
          ∀ piece : List Char,
            (∀ c ∈ piece, (c != '/') = true) ↔ '/' ∉ piece := by
        intro piece
        simp only [bne_iff_ne]
        constructor
        · intro hAll hMem
          exact hAll '/' hMem rfl
        · rintro hNot c hC rfl
          exact hNot hC
      simp only [hPlain]
  | tree =>
      simp only [rests, Takes, List.mem_cons]
      constructor
      · rintro (rfl | hRest)
        · exact ⟨[], Or.inl rfl, rfl⟩
        · cases text with
          | nil => cases hRest
          | cons first others =>
              rw [restsAfterDirectories] at hRest
              split at hRest
              · cases hRest
              · next hLine =>
                  rcases mem_restsAfterSlash_iff.mp hRest with
                    ⟨front, hFront, rfl⟩
                  refine ⟨first :: front ++ ['/'], Or.inr
                    ⟨first :: front, by simp, ?_, rfl⟩, by simp⟩
                  simpa [hFront] using Ne.symm hLine
      · rintro ⟨piece, rfl | ⟨front, hSome, hFront, rfl⟩, rfl⟩
        · exact Or.inl rfl
        · cases front with
          | nil => exact absurd rfl hSome
          | cons first more =>
              rw [List.mem_cons, not_or] at hFront
              right
              simp only [List.cons_append, restsAfterDirectories]
              rw [if_neg (Ne.symm hFront.1), mem_restsAfterSlash_iff]
              exact ⟨more, hFront.2, by simp⟩
  | oneOf s =>
      simp only [rests, Takes, mem_restsOfOne_iff,
        CharSet.contains_iff_has]
      constructor
      · rintro ⟨c, hC, hText⟩
        exact ⟨[c], ⟨c, hC, rfl⟩, hText⟩
      · rintro ⟨piece, ⟨c, hC, rfl⟩, hText⟩
        exact ⟨c, hC, hText⟩
  | manyOf s =>
      simp only [rests, Takes, mem_restsOfRun_iff,
        CharSet.contains_iff_has]

/- The text is a row of pieces that go with the items. -/
def CutBy
    (R : Item → List Char → Prop)
    (items : List Item)
    (text : List Char) : Prop :=
  ∃ pieces, List.Forall₂ R items pieces ∧ pieces.flatten = text

section CutBy

variable {R : Item → List Char → Prop} {text : List Char}

theorem cutBy_nil_iff :
    CutBy R [] text ↔ text = [] := by
  constructor
  · rintro ⟨pieces, hPieces, rfl⟩
    cases hPieces
    rfl
  · rintro rfl
    exact ⟨[], .nil, rfl⟩

theorem cutBy_cons_iff
    {item : Item}
    {items : List Item} :
    CutBy R (item :: items) text ↔
      ∃ piece rest,
        R item piece ∧ CutBy R items rest ∧
          text = piece ++ rest := by
  constructor
  · rintro ⟨pieces, hPieces, rfl⟩
    cases hPieces with
    | cons hPiece hOthers =>
        exact ⟨_, _, hPiece, ⟨_, hOthers, rfl⟩, List.flatten_cons⟩
  · rintro ⟨piece, rest, hPiece, ⟨others, hOthers, rfl⟩, rfl⟩
    exact ⟨piece :: others, .cons hPiece hOthers,
      List.flatten_cons⟩

theorem cutBy_append_iff
    {first second : List Item} :
    CutBy R (first ++ second) text ↔
      ∃ front back,
        text = front ++ back ∧
          CutBy R first front ∧ CutBy R second back := by
  induction first generalizing text with
  | nil => simp [cutBy_nil_iff]
  | cons item items ih =>
      simp only [List.cons_append, cutBy_cons_iff, ih]
      constructor
      · rintro ⟨piece, rest, hPiece,
          ⟨front, back, rfl, hFront, hBack⟩, rfl⟩
        exact ⟨piece ++ front, back, by simp,
          ⟨piece, front, hPiece, hFront, rfl⟩, hBack⟩
      · rintro ⟨front, back, rfl,
          ⟨piece, rest, hPiece, hRest, rfl⟩, hBack⟩
        exact ⟨piece, rest ++ back, hPiece,
          ⟨rest, back, rfl, hRest, hBack⟩, by simp⟩

end CutBy

theorem covers_nil_iff
    {text : List Char} :
    Covers [] text ↔ text = [] :=
  cutBy_nil_iff

theorem covers_cons_iff
    {item : Item}
    {items : List Item}
    {text : List Char} :
    Covers (item :: items) text ↔
      ∃ piece rest,
        item.Takes piece ∧ Covers items rest ∧
          text = piece ++ rest :=
  cutBy_cons_iff

/- Items accept the texts that are rows of their pieces. -/
theorem acceptsAll_iff_covers
    {items : List Item}
    {text : List Char} :
    acceptsAll items text = true ↔ Covers items text := by
  induction items generalizing text with
  | nil => simp [acceptsAll, covers_nil_iff]
  | cons item items ih =>
      rw [acceptsAll, List.any_eq_true, covers_cons_iff]
      constructor
      · rintro ⟨rest, hRest, hAccepts⟩
        rcases Item.mem_rests_iff.mp hRest with
          ⟨piece, hPiece, hText⟩
        exact ⟨piece, rest, hPiece, ih.mp hAccepts, hText⟩
      · rintro ⟨piece, rest, hPiece, hCovers, hText⟩
        exact ⟨rest, Item.mem_rests_iff.mpr ⟨piece, hPiece, hText⟩,
          ih.mpr hCovers⟩

end Mask

end SymbolAtlas

------------------------------------------------------------
-- Reading a Mask
------------------------------------------------------------

namespace SymbolAtlas

namespace Mask

/- A character that may stand in a class for itself. -/
def IsMember (c : Char) : Prop :=
  c ∉ ['[', ']', '*', '?', '!', '-', '/']

instance (c : Char) : Decidable (IsMember c) :=
  inferInstanceAs (Decidable (c ∉ _))

/- The body of a class: characters and ascending ranges. -/
inductive ReadsMembers : List Char → List CharRange → Prop
| nil : ReadsMembers [] []
| single {c : Char} {rest : List Char} {ranges : List CharRange}
    (hMember : IsMember c)
    (hRest : ReadsMembers rest ranges) :
    ReadsMembers (c :: rest) (⟨c, c⟩ :: ranges)
| span {first last : Char} {rest : List Char}
    {ranges : List CharRange}
    (hFirst : IsMember first)
    (hLast : IsMember last)
    (hOrder : first ≤ last)
    (hRest : ReadsMembers rest ranges) :
    ReadsMembers (first :: '-' :: last :: rest)
      (⟨first, last⟩ :: ranges)

/- The sign behind the bracket of a class that is negated. -/
def negation (negated : Bool) : List Char :=
  if negated then ['!'] else []

/- The items of a mask text, stars with their slash first. -/
inductive Reads : List Char → List Item → Prop
| nil : Reads [] []
| tree {rest : List Char} {items : List Item}
    (hRest : Reads rest items) :
    Reads ('*' :: '*' :: '/' :: rest) (.tree :: items)
| run {rest : List Char} {items : List Item}
    (hNot : ¬ ['*', '/'] <+: rest)
    (hRest : Reads rest items) :
    Reads ('*' :: rest) (.run :: items)
| single {rest : List Char} {items : List Item}
    (hRest : Reads rest items) :
    Reads ('?' :: rest) (.single :: items)
| oneOf {body rest : List Char} {ranges : List CharRange}
    {items : List Item}
    (negated : Bool)
    (hBody : ReadsMembers body ranges)
    (hSome : body ≠ [])
    (hRest : Reads rest items) :
    Reads ('[' :: negation negated ++ body ++ ']' :: rest)
      (.oneOf ⟨negated, ranges⟩ :: items)
| literal {c : Char} {rest : List Char} {items : List Item}
    (hPlain : c ∉ ['*', '?', '['])
    (hRest : Reads rest items) :
    Reads (c :: rest) (.literal c :: items)

/- A mask text without backslashes: its anchor and its items. -/
inductive Says : List Char → Bool → List Item → Prop
| anchored {rest : List Char} {items : List Item}
    (hRest : Reads rest items) :
    Says ('.' :: '/' :: rest) true items
| floating {text : List Char} {items : List Item}
    (hNot : ¬ ['.', '/'] <+: text)
    (hText : Reads text items) :
    Says text false items

/-
  The whole path is covered or, unless the mask is anchored,
  what follows one of its slashes.
-/
def Accepted
    (anchored : Bool)
    (items : List Item)
    (path : List Char) : Prop :=
  Covers items path ∨
    (anchored = false ∧
      ∃ front back, path = front ++ '/' :: back ∧
        Covers items back)

end Mask

end SymbolAtlas

------------------------------------------------------------
-- Marks
------------------------------------------------------------

namespace SymbolAtlas

namespace Mask

theorem marks_star
    {rest : List Char}
    (hNot : ¬ ['*', '/'] <+: rest) :
    marks ('*' :: rest) = .star :: marks rest := by
  rw [marks]
  rintro more rfl
  exact hNot ⟨more, rfl⟩

theorem marks_opening
    {rest : List Char}
    (hNot : rest.head? ≠ some '!') :
    marks ('[' :: rest) = .opening false :: marks rest := by
  rw [marks]
  rintro more rfl
  exact hNot rfl

/- A character that starts no mark of its own is plain. -/
theorem marks_plain
    {c : Char}
    (hPlain : c ∉ ['*', '?', '[', ']', '-'])
    (rest : List Char) :
    marks (c :: rest) = .plain c :: marks rest := by
  simp only [List.mem_cons, List.not_mem_nil, or_false,
    not_or] at hPlain
  rw [marks]
  all_goals simp_all

theorem IsMember.marks_eq
    {c : Char}
    (hMember : IsMember c)
    (rest : List Char) :
    marks (c :: rest) = .plain c :: marks rest := by
  apply marks_plain
  intro hSpecial
  apply hMember
  simp only [List.mem_cons, List.not_mem_nil, or_false] at hSpecial ⊢
  tauto

/- A class goes on to its bracket and ends there. -/
theorem readItems_members
    {body : List Char}
    {ranges : List CharRange}
    (hBody : ReadsMembers body ranges)
    (negated : Bool)
    {draft : Draft}
    (hDash : draft.dashed = false)
    (hSome : draft.isEmpty = false ∨ body ≠ [])
    (rest : List Char) :
    readItems (.inside negated draft) (marks (body ++ ']' :: rest)) =
      (readItems .outside (marks rest)).map
        (.oneOf ⟨negated, draft.settled ++ ranges⟩ :: ·) := by
  induction hBody generalizing draft with
  | nil =>
      have hFull : draft.isEmpty = false := by
        simpa using hSome
      rw [List.nil_append, marks, readItems, Draft.step?, hFull]
      simp [Draft.closed, hDash, classItem]
  | @single c more ranges hMember _ ih =>
      rw [List.cons_append, hMember.marks_eq, readItems]
      have hStep :
          draft.step? (.plain c) =
            some (.more ⟨draft.settled, some c, false⟩) := by
        unfold Draft.step? Draft.member?
        cases hLast : draft.last <;> simp [hDash]
      rw [hStep]
      dsimp only
      rw [ih rfl (Or.inl (by simp [Draft.isEmpty]))]
      simp [Draft.settled, CharRange.single]
  | @span first last more ranges hFirst hLast hOrder _ ih =>
      rw [List.cons_append, List.cons_append, List.cons_append,
        hFirst.marks_eq, readItems]
      have hStep :
          draft.step? (.plain first) =
            some (.more ⟨draft.settled, some first, false⟩) := by
        unfold Draft.step? Draft.member?
        cases hHeld : draft.last <;> simp [hDash]
      rw [hStep]
      dsimp only
      rw [marks, readItems]
      dsimp only [Draft.step?, Draft.dash?, Option.map_some]
      rw [hLast.marks_eq, readItems]
      simp only [Draft.step?, Draft.member?, if_pos hOrder,
        Option.map_some]
      rw [ih rfl (Or.inl (by simp [Draft.isEmpty]))]
      simp [Draft.settled]

/- The reader finds the items of a text. -/
theorem items?_of_reads
    {text : List Char}
    {items : List Item}
    (hReads : Reads text items) :
    items? text = some items := by
  unfold items?
  induction hReads with
  | nil => rfl
  | tree _ ih => rw [marks, readItems, ih]; rfl
  | run hNot _ ih => rw [marks_star hNot, readItems, ih]; rfl
  | single _ ih => rw [marks, readItems, ih]; rfl
  | @oneOf body rest ranges items negated hBody hSome _ ih =>
      have hOpening :
          marks ('[' :: negation negated ++ body ++ ']' :: rest) =
            .opening negated :: marks (body ++ ']' :: rest) := by
        cases negated with
        | true => rfl
        | false =>
            apply marks_opening
            cases hBody with
            | nil => exact absurd rfl hSome
            | single hMember _ =>
                rintro hBang
                cases hBang
                exact hMember (by simp)
            | span hFirst _ _ _ =>
                rintro hBang
                cases hBang
                exact hFirst (by simp)
      rw [hOpening, readItems,
        readItems_members hBody negated rfl (Or.inr hSome), ih]
      rfl
  | @literal c rest items hPlain _ ih =>
      by_cases hClosing : c = ']'
      · subst hClosing
        rw [marks, readItems, ih]
        rfl
      · by_cases hDash : c = '-'
        · subst hDash
          rw [marks, readItems, ih]
          rfl
        · have hMark : c ∉ ['*', '?', '[', ']', '-'] := by
            simp only [List.mem_cons, List.not_mem_nil, or_false,
              not_or] at hPlain ⊢
            exact ⟨hPlain.1, hPlain.2.1, hPlain.2.2, hClosing,
              hDash⟩
          rw [marks_plain hMark, readItems, ih]
          rfl

end Mask

end SymbolAtlas

------------------------------------------------------------
-- Acceptance
------------------------------------------------------------

namespace SymbolAtlas

namespace Mask

theorem mem_behindSlashes_iff
    {text back : List Char} :
    back ∈ starts.behindSlashes text ↔
      ∃ front, text = front ++ '/' :: back := by
  induction text with
  | nil => simp [starts.behindSlashes]
  | cons first others ih =>
      unfold starts.behindSlashes
      constructor
      · intro hBack
        split at hBack
        · next hSlash =>
            rcases List.mem_cons.mp hBack with rfl | hLater
            · exact ⟨[], by rw [hSlash]; rfl⟩
            · rcases ih.mp hLater with ⟨front, rfl⟩
              exact ⟨first :: front, rfl⟩
        · rcases ih.mp hBack with ⟨front, rfl⟩
          exact ⟨first :: front, rfl⟩
      · rintro ⟨front, hText⟩
        cases front with
        | nil =>
            cases hText
            rw [if_pos rfl]
            exact List.mem_cons_self
        | cons c more =>
            cases hText
            have hLater := ih.mpr ⟨more, rfl⟩
            split
            · exact List.mem_cons_of_mem _ hLater
            · exact hLater

theorem acceptsText_anchored_iff
    {items : List Item}
    {path : List Char} :
    acceptsText (.anchored items) path = true ↔
      Accepted true items path := by
  simp [acceptsText, Accepted, acceptsAll_iff_covers]

theorem acceptsText_floating_iff
    {items : List Item}
    {path : List Char} :
    acceptsText (.floating items) path = true ↔
      Accepted false items path := by
  simp only [acceptsText, Accepted, starts, List.any_cons,
    Bool.or_eq_true, List.any_eq_true, acceptsAll_iff_covers,
    mem_behindSlashes_iff, true_and]
  constructor
  · rintro (hWhole | ⟨back, ⟨front, hPath⟩, hBack⟩)
    · exact Or.inl hWhole
    · exact Or.inr ⟨front, back, hPath, hBack⟩
  · rintro (hWhole | ⟨front, back, hPath, hBack⟩)
    · exact Or.inl hWhole
    · exact Or.inr ⟨back, ⟨front, hPath⟩, hBack⟩

/- The last name of a path is a run, so one star accepts all. -/
theorem accepted_run
    (path : List Char) :
    Accepted false [.run] path := by
  have hRun :
      ∀ text : List Char, '/' ∉ text → Covers [.run] text :=
    fun text hText => ⟨[text], .cons hText .nil, by simp⟩
  induction path with
  | nil => exact Or.inl (hRun [] (by simp))
  | cons c rest ih =>
      rcases ih with hWhole | ⟨-, front, back, rfl, hBack⟩
      · by_cases hSlash : c = '/'
        · subst hSlash
          exact Or.inr ⟨rfl, [], rest, rfl, hWhole⟩
        · left
          apply hRun
          have hRest : '/' ∉ rest := by
            rcases covers_cons_iff.mp hWhole with
              ⟨piece, more, hPiece, hMore, rfl⟩
            rw [covers_nil_iff.mp hMore, List.append_nil]
            exact hPiece
          simpa [hRest] using Ne.symm hSlash
      · exact Or.inr ⟨rfl, c :: front, back, rfl, hBack⟩

/- The pattern that a mask text is compiled to. -/
theorem pattern?_of_says
    {text : List Char}
    {anchored : Bool}
    {items : List Item}
    (hSays : Says text anchored items) :
    ∃ pattern,
      pattern? text = some pattern ∧
        ∀ path, acceptsText pattern path = true ↔
          Accepted anchored items path := by
  cases hSays with
  | @anchored rest _ hRest =>
      refine ⟨.anchored items, ?_, fun _ =>
        acceptsText_anchored_iff⟩
      rw [pattern?, items?_of_reads hRest]
      rfl
  | floating hNot hText =>
      by_cases hStar : text = ['*']
      · subst hStar
        cases hText with
        | literal hPlain _ => simp at hPlain
        | run _ hRest =>
            cases hRest
            refine ⟨.everything, rfl, fun path => ?_⟩
            simp [acceptsText, accepted_run]
      · refine ⟨.floating items, ?_, fun _ =>
          acceptsText_floating_iff⟩
        rw [pattern?, items?_of_reads hText]
        · rfl
        · exact hStar
        · rintro rest rfl
          exact hNot ⟨rest, rfl⟩

theorem compile_of_pattern?
    {text : String}
    {pattern : MaskPattern}
    (hPattern :
      pattern? (Path.withSlashes text).toList = some pattern) :
    compile text = .ok ⟨text, pattern⟩ := by
  unfold compile
  rw [hPattern]

/-
  A mask whose text can be read is compiled, and it accepts a
  path exactly if the path, or what follows one of its slashes
  when the mask is not anchored, is a row of pieces of its
  items.
-/
theorem compile_accepts_what_it_says
    (text : String)
    {anchored : Bool}
    {items : List Item}
    (hSays : Says (Path.withSlashes text).toList anchored items) :
    ∃ mask,
      compile text = .ok mask ∧
        ∀ path, mask.accepts path = true ↔
          Accepted anchored items
            (Path.withSlashes path).toList := by
  rcases pattern?_of_says hSays with ⟨pattern, hPattern, hAccepts⟩
  exact ⟨⟨text, pattern⟩, compile_of_pattern? hPattern,
    fun path => hAccepts _⟩

/- An anchored mask with stars, a negated class and wildcards. -/
theorem compile_layered_mask :
    Says (Path.withSlashes ".\\a-]**/[!b-dx]?*").toList true
        [.literal 'a', .literal '-', .literal ']', .tree,
          .oneOf ⟨true, [⟨'b', 'd'⟩, ⟨'x', 'x'⟩]⟩, .single, .run] ∧
      ∃ mask,
        compile ".\\a-]**/[!b-dx]?*" = .ok mask ∧
          mask.accepts "a-]one\\two/yes.php" = true ∧
          mask.accepts "a-]one/two/cat.php" = false := by
  have hText :
      (Path.withSlashes ".\\a-]**/[!b-dx]?*").toList =
        ['.', '/', 'a', '-', ']', '*', '*', '/', '[', '!', 'b',
          '-', 'd', 'x', ']', '?', '*'] := by
    decide
  have hSays :
      Says (Path.withSlashes ".\\a-]**/[!b-dx]?*").toList true
        [.literal 'a', .literal '-', .literal ']', .tree,
          .oneOf ⟨true, [⟨'b', 'd'⟩, ⟨'x', 'x'⟩]⟩, .single,
          .run] := by
    rw [hText]
    refine .anchored (.literal (by decide) (.literal (by decide)
      (.literal (by decide) (.tree ?_))))
    exact .oneOf true
      (.span (by decide) (by decide) (by decide)
        (.single (by decide) .nil))
      (by decide) (.single (.run (by decide) .nil))
  refine ⟨hSays, ?_⟩
  rcases compile_accepts_what_it_says _ hSays with
    ⟨mask, hMask, hAccepts⟩
  refine ⟨mask, hMask, ?_, ?_⟩
  · rw [hAccepts, ← acceptsText_anchored_iff]
    decide
  · rw [Bool.eq_false_iff, ne_eq, hAccepts,
      ← acceptsText_anchored_iff]
    decide

end Mask

end SymbolAtlas
