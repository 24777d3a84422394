import SymbolAtlas.Proofs.Mask.Segments

/-
  Classes of a mask as they are read.

  A star or question mark ends the class it stands in, and so
  does a closing bracket that is not the first member. Each other
  mark adds what it stands for to the members, and two of them
  with a dash between make a range. A mask has items if each
  class ends and no range runs backwards.

  Key definitions:
    * `Mask.spans`, `Mask.IsReversed`
    * `Mask.StandsFor`, `Mask.Ends`, `Mask.ReadsClass`
    * `Mask.IsSound`

  Key theorems:
    * `Mask.Draft.isSome_foldlM_take?`
    * `Mask.isSome_readItems_inside`
    * `Mask.isSome_items?_iff_isSound`
-/

------------------------------------------------------------
-- Ranges of a Class
------------------------------------------------------------

namespace SymbolAtlas

namespace Mask

/- Members in a row; a dash between two makes a range. -/
def spans : List Char → List CharRange
| first :: '-' :: last :: rest => ⟨first, last⟩ :: spans rest
| c :: rest => .single c :: spans rest
| [] => []

/- Some range of the members runs backwards. -/
def IsReversed (members : List Char) : Prop :=
  ∃ range ∈ spans members, range.last < range.first

instance
    (members : List Char) :
    Decidable (IsReversed members) :=
  inferInstanceAs (Decidable (∃ range ∈ spans members, _))

theorem spans_cons_of_ne
    {c next : Char}
    (hNext : next ≠ '-')
    (rest : List Char) :
    spans (c :: next :: rest) =
      .single c :: spans (next :: rest) := by
  rw [spans]
  intro last more hRest
  cases hRest
  exact hNext rfl

theorem isReversed_span_iff
    {first last : Char}
    {rest : List Char} :
    IsReversed (first :: '-' :: last :: rest) ↔
      last < first ∨ IsReversed rest := by
  simp [IsReversed, spans]

theorem isReversed_cons_iff
    {c next : Char}
    (hNext : next ≠ '-')
    {rest : List Char} :
    IsReversed (c :: next :: rest) ↔
      IsReversed (next :: rest) := by
  simp [IsReversed, spans_cons_of_ne hNext, CharRange.single]

end Mask

end SymbolAtlas

------------------------------------------------------------
-- Members That Are Taken One by One
------------------------------------------------------------

namespace SymbolAtlas

namespace Mask

namespace Draft

/- Take a character of a class, be it a dash or another one. -/
def take? (d : Draft) (c : Char) : Option Draft :=
  if c = '-' then d.dash? else d.member? c

/- The characters that may still become a range. -/
def held (d : Draft) : List Char :=
  match d.last, d.dashed with
  | some c, true => [c, '-']
  | some c, false => [c]
  | none, _ => []

/- Characters that cannot make a range are a member each. -/
theorem take?_of_last_eq_none
    {d : Draft}
    (hLast : d.last = none)
    (c : Char) :
    d.take? c = some ⟨d.settled, some c, false⟩ := by
  unfold take? dash? member?
  rw [hLast]
  by_cases hDash : c = '-'
  · simp [hDash]
  · simp [hDash]

theorem take?_of_ne
    {first c : Char}
    (hDash : c ≠ '-')
    (ranges : List CharRange) :
    take? ⟨ranges, some first, false⟩ c =
      some ⟨ranges ++ [.single first], some c, false⟩ := by
  simp [take?, member?, settled, hDash]

/- Behind a dash any character ends a range. -/
theorem take?_of_dashed
    (ranges : List CharRange)
    (first c : Char) :
    take? ⟨ranges, some first, true⟩ c =
      if first ≤ c then
        some ⟨ranges ++ [⟨first, c⟩], none, false⟩
      else none := by
  unfold take? dash? member?
  by_cases hDash : c = '-'
  · simp [hDash]
  · simp [hDash]

/-
  The members are taken if no range runs backwards, counting
  the characters that were held back. The induction is on the
  members; which case applies depends on what is held back.
-/
theorem isSome_foldlM_take?
    (d : Draft)
    (members : List Char) :
    (members.foldlM take? d).isSome = true ↔
      ¬ IsReversed (d.held ++ members) := by
  induction members generalizing d with
  | nil =>
      rcases d with ⟨ranges, _ | c, _ | _⟩ <;>
        simp [held, IsReversed, spans, CharRange.single]
  | cons c rest ih =>
      rw [List.foldlM_cons]
      rcases d with ⟨ranges, _ | first, _ | _⟩
      · rw [take?_of_last_eq_none rfl]
        exact ih _
      · rw [take?_of_last_eq_none rfl]
        exact ih _
      · by_cases hDash : c = '-'
        · subst hDash
          exact ih ⟨ranges, some first, true⟩
        · rw [take?_of_ne hDash]
          simpa [held, isReversed_cons_iff hDash] using
            ih ⟨ranges ++ [.single first], some c, false⟩
      · rw [take?_of_dashed]
        by_cases hOrder : first ≤ c
        · simpa [held, isReversed_span_iff, hOrder] using
            ih ⟨ranges ++ [⟨first, c⟩], none, false⟩
        · simp [held, isReversed_span_iff, hOrder]

/- What is taken first does not say how the rest is judged. -/
theorem isReversed_append_of_taken
    {d next : Draft}
    {members : List Char}
    (hTaken : members.foldlM take? d = some next)
    (more : List Char) :
    IsReversed (d.held ++ (members ++ more)) ↔
      IsReversed (next.held ++ more) := by
  have hAll := isSome_foldlM_take? d (members ++ more)
  have hRest := isSome_foldlM_take? next more
  rw [List.foldlM_append, hTaken] at hAll
  exact not_iff_not.mp (hAll.symm.trans hRest)

theorem isReversed_append_of_refused
    {d : Draft}
    {members : List Char}
    (hRefused : members.foldlM take? d = none)
    (more : List Char) :
    IsReversed (d.held ++ (members ++ more)) := by
  have hAll := isSome_foldlM_take? d (members ++ more)
  rw [List.foldlM_append, hRefused] at hAll
  simpa using hAll

theorem members?_eq_foldlM
    {members : List Char}
    (hDash : '-' ∉ members)
    (d : Draft) :
    d.members? members = members.foldlM take? d := by
  induction members generalizing d with
  | nil => rfl
  | cons c rest ih =>
      rw [List.mem_cons, not_or] at hDash
      have hTake : d.take? c = d.member? c := by
        simp [take?, Ne.symm hDash.1]
      rw [members?, List.foldlM_cons, hTake]
      exact Option.bind_congr fun next _ => ih hDash.2 next

/- Where something was taken, a bracket ends the class. -/
theorem isEmpty_of_take?
    {d next : Draft}
    {c : Char}
    (hTake : d.take? c = some next) :
    next.isEmpty = false := by
  rcases d with ⟨ranges, _ | first, _ | _⟩
  · rw [take?_of_last_eq_none rfl] at hTake
    cases hTake
    simp [isEmpty]
  · rw [take?_of_last_eq_none rfl] at hTake
    cases hTake
    simp [isEmpty]
  · by_cases hDash : c = '-'
    · subst hDash
      cases hTake
      simp [isEmpty]
    · rw [take?_of_ne hDash] at hTake
      cases hTake
      simp [isEmpty]
  · rw [take?_of_dashed] at hTake
    split at hTake
    · cases hTake
      simp [isEmpty]
    · cases hTake

theorem isEmpty_of_foldlM_take?
    {d next : Draft}
    {members : List Char}
    (hSome : members ≠ [])
    (hTaken : members.foldlM take? d = some next) :
    next.isEmpty = false := by
  rcases List.eq_nil_or_concat members with rfl | ⟨front, c, rfl⟩
  · exact absurd rfl hSome
  · rw [List.concat_eq_append, List.foldlM_append] at hTaken
    rcases Option.bind_eq_some_iff.mp hTaken with
      ⟨before, -, hLast⟩
    have hTake : before.take? c = some next := by
      simpa using hLast
    exact isEmpty_of_take? hTake

end Draft

end Mask

end SymbolAtlas

------------------------------------------------------------
-- Classes as They Are Read
------------------------------------------------------------

namespace SymbolAtlas

namespace Mask

/-
  What stands in a class before its end, and the members that
  it stands for. A dash is one of them here.
-/
inductive StandsFor : List Char → List Char → Prop
| nil : StandsFor [] []
| tree {text members : List Char}
    (hRest : StandsFor text members) :
    StandsFor ('*' :: '*' :: '/' :: text) (treeMembers ++ members)
| opening {text members : List Char}
    (hNot : text.head? ≠ some '!')
    (hRest : StandsFor text members) :
    StandsFor ('[' :: text) ('[' :: members)
| negated {text members : List Char}
    (hRest : StandsFor text members) :
    StandsFor ('[' :: '!' :: text) ('[' :: '^' :: members)
| plain {c : Char} {text members : List Char}
    (hPlain : c ∉ ['*', '?', '[', ']'])
    (hRest : StandsFor text members) :
    StandsFor (c :: text) (c :: members)

/-
  The end of a class, the members that come with it, and what
  is left. A wildcard ends a class as a bracket does.
-/
inductive Ends : List Char → List Char → List Char → Prop
| bracket (rest : List Char) : Ends (']' :: rest) [] rest
| question (rest : List Char) :
    Ends ('?' :: rest) wildcardMembers rest
| star {rest : List Char}
    (hNot : ¬ ['*', '/'] <+: rest) :
    Ends ('*' :: rest) wildcardMembers rest

/- A class behind its opening: its members and what is left. -/
inductive ReadsClass : List Char → List Char → List Char → Prop
| bracket {text members tail added rest : List Char}
    (hStands : StandsFor text members)
    (hEnds : Ends tail added rest) :
    ReadsClass (']' :: (text ++ tail)) (']' :: (members ++ added))
      rest
| other {text members tail added rest : List Char}
    (hFirst : (text ++ tail).head? ≠ some ']')
    (hStands : StandsFor text members)
    (hEnds : Ends tail added rest) :
    ReadsClass (text ++ tail) (members ++ added) rest

/- The sign of negation is part of the opening. -/
def IsOpened (negated : Bool) (text : List Char) : Prop :=
  negated = false → text.head? ≠ some '!'

/- Every class has an end and no range that runs backwards. -/
inductive IsSound : List Char → Prop
| nil : IsSound []
| plain {c : Char} {rest : List Char}
    (hPlain : c ≠ '[')
    (hRest : IsSound rest) :
    IsSound (c :: rest)
| oneOf {negated : Bool} {text members rest : List Char}
    (hOpened : IsOpened negated text)
    (hClass : ReadsClass text members rest)
    (hOrder : ¬ IsReversed members)
    (hRest : IsSound rest) :
    IsSound ('[' :: negation negated ++ text)

/- A class goes on behind a mark that stands for members. -/
theorem isSome_readItems_more
    {draft : Draft}
    {negated : Bool}
    {mark : Mark}
    {source : List Mark}
    {more : List Char}
    {P : Prop}
    (taken : List Char)
    (hSome : taken ≠ [])
    (hStep :
      draft.step? mark =
        (taken.foldlM Draft.take? draft).map .more)
    (hRest :
      ∀ next : Draft, next.isEmpty = false →
        ((readItems (.inside negated next) source).isSome = true ↔
          ¬ IsReversed (next.held ++ more) ∧ P)) :
    (readItems (.inside negated draft)
        (mark :: source)).isSome = true ↔
      ¬ IsReversed (draft.held ++ (taken ++ more)) ∧ P := by
  rw [readItems, hStep]
  cases hTaken : taken.foldlM Draft.take? draft with
  | none =>
      have hReversed :=
        Draft.isReversed_append_of_refused hTaken more
      simp only [hReversed, not_true_eq_false, false_and, iff_false]
      simp
  | some next =>
      have hNext := Draft.isEmpty_of_foldlM_take? hSome hTaken
      rw [Draft.isReversed_append_of_taken hTaken]
      exact hRest next hNext

/- The class ends, and what is left is read outside of it. -/
theorem isSome_readItems_ends
    {tail added rest : List Char}
    (hEnds : Ends tail added rest)
    (negated : Bool)
    {draft : Draft}
    (hSome : draft.isEmpty = false ∨ tail.head? ≠ some ']') :
    (readItems (.inside negated draft)
        (marks tail)).isSome = true ↔
      ¬ IsReversed (draft.held ++ added) ∧
        (items? rest).isSome = true := by
  unfold items?
  rw [← Draft.isSome_foldlM_take?]
  cases hEnds with
  | bracket =>
      have hFull : draft.isEmpty = false := by
        simpa using hSome
      rw [marks, readItems, Draft.step?, hFull]
      simp
  | question =>
      rw [marks, readItems, Draft.step?,
        Draft.members?_eq_foldlM (by decide)]
      cases wildcardMembers.foldlM Draft.take? draft <;> simp
  | star hNot =>
      rw [marks_star hNot, readItems, Draft.step?,
        Draft.members?_eq_foldlM (by decide)]
      cases wildcardMembers.foldlM Draft.take? draft <;> simp

/- A character that stands for itself in a class. -/
theorem step?_of_plain
    {c : Char}
    (hPlain : c ∉ ['*', '?', '[', ']'])
    (text : List Char) :
    ∃ mark,
      marks (c :: text) = mark :: marks text ∧
        ∀ draft : Draft,
          draft.step? mark =
            ([c].foldlM Draft.take? draft).map .more := by
  by_cases hDash : c = '-'
  · subst hDash
    refine ⟨.dash, by rw [marks], fun draft => ?_⟩
    simp [Draft.step?, Draft.take?]
  · refine ⟨.plain c, marks_plain (by simp_all) text,
      fun draft => ?_⟩
    simp [Draft.step?, Draft.take?, hDash]

/-
  What stands in a class is taken, and then its end decides. The
  induction is on what stands in the class, for every draft;
  behind the first mark a closing bracket is no member any more.
-/
theorem isSome_readItems_inside
    {text members tail added : List Char}
    {negated : Bool}
    {P : Prop}
    (hStands : StandsFor text members)
    (hBang : tail.head? ≠ some '!')
    (hTail :
      ∀ next : Draft,
        next.isEmpty = false ∨ tail.head? ≠ some ']' →
          ((readItems (.inside negated next)
              (marks tail)).isSome = true ↔
            ¬ IsReversed (next.held ++ added) ∧ P))
    {draft : Draft}
    (hSome :
      draft.isEmpty = false ∨ (text ++ tail).head? ≠ some ']') :
    (readItems (.inside negated draft)
        (marks (text ++ tail))).isSome = true ↔
      ¬ IsReversed (draft.held ++ (members ++ added)) ∧ P := by
  induction hStands generalizing draft with
  | nil => exact hTail draft hSome
  | @tree text members _ ih =>
      rw [List.append_assoc treeMembers, List.cons_append,
        List.cons_append, List.cons_append, marks]
      apply isSome_readItems_more treeMembers (by decide)
      · rw [Draft.step?, Draft.members?_eq_foldlM (by decide)]
      · exact fun next hNext => ih (Or.inl hNext)
  | @opening text members hNot _ ih =>
      have hHead : (text ++ tail).head? ≠ some '!' := by
        cases text with
        | nil => exact hBang
        | cons c more => exact hNot
      rw [List.cons_append, marks_opening hHead]
      apply isSome_readItems_more ['['] (by decide)
      · rw [Draft.step?, Draft.members?_eq_foldlM (by decide)]
      · exact fun next hNext => ih (Or.inl hNext)
  | @negated text members _ ih =>
      rw [List.cons_append, List.cons_append, marks]
      apply isSome_readItems_more ['[', '^'] (by decide)
      · rw [Draft.step?, Draft.members?_eq_foldlM (by decide)]
      · exact fun next hNext => ih (Or.inl hNext)
  | @plain c text members hPlain _ ih =>
      rcases step?_of_plain hPlain (text ++ tail) with
        ⟨mark, hMarks, hStep⟩
      rw [List.cons_append, hMarks]
      apply isSome_readItems_more [c] (by simp)
      · exact hStep draft
      · exact fun next hNext => ih (Or.inl hNext)

theorem isSome_readItems_closed
    {text members tail added rest : List Char}
    (hStands : StandsFor text members)
    (hEnds : Ends tail added rest)
    (negated : Bool)
    {draft : Draft}
    (hSome :
      draft.isEmpty = false ∨ (text ++ tail).head? ≠ some ']') :
    (readItems (.inside negated draft)
        (marks (text ++ tail))).isSome = true ↔
      ¬ IsReversed (draft.held ++ (members ++ added)) ∧
        (items? rest).isSome = true := by
  have hBang : tail.head? ≠ some '!' := by
    cases hEnds <;> simp
  exact isSome_readItems_inside hStands hBang
    (fun next hNext => isSome_readItems_ends hEnds negated hNext)
    hSome

/- A class without an end is not read. -/
theorem readItems_open
    {text members : List Char}
    (hStands : StandsFor text members)
    (negated : Bool)
    {draft : Draft}
    (hSome : draft.isEmpty = false ∨ text.head? ≠ some ']') :
    readItems (.inside negated draft) (marks text) = none := by
  have hRead :
      (readItems (.inside negated draft)
          (marks (text ++ []))).isSome = true ↔
        ¬ IsReversed (draft.held ++ (members ++ [])) ∧ False := by
    apply isSome_readItems_inside hStands (by simp)
    · intro next _
      simp [marks, readItems]
    · simpa using hSome
  simpa using hRead

/-
  Every text starts with what stands in a class, up to the end
  of the class or of the text.
-/
theorem exists_standsFor
    (text : List Char) :
    ∃ front members tail,
      StandsFor front members ∧ text = front ++ tail ∧
        (tail = [] ∨ ∃ added rest, Ends tail added rest) := by
  fun_induction marks text with
  | case1 rest ih =>
      rcases ih with ⟨front, members, tail, hStands, rfl, hTail⟩
      exact ⟨_, _, tail, .tree hStands, rfl, hTail⟩
  | case2 rest hNot ih =>
      refine ⟨[], [], _, .nil, rfl, Or.inr ⟨_, _, .star ?_⟩⟩
      rintro ⟨more, rfl⟩
      exact hNot more rfl
  | case3 rest ih =>
      exact ⟨[], [], _, .nil, rfl, Or.inr ⟨_, _, .question rest⟩⟩
  | case4 rest ih =>
      rcases ih with ⟨front, members, tail, hStands, rfl, hTail⟩
      exact ⟨_, _, tail, .negated hStands, rfl, hTail⟩
  | case5 rest hNot ih =>
      rcases ih with ⟨front, members, tail, hStands, rfl, hTail⟩
      have hBang : front.head? ≠ some '!' := by
        cases front with
        | nil => simp
        | cons c more =>
            intro hHead
            cases hHead
            exact hNot (more ++ tail) rfl
      exact ⟨_, _, tail, .opening hBang hStands, rfl, hTail⟩
  | case6 rest ih =>
      exact ⟨[], [], _, .nil, rfl, Or.inr ⟨_, _, .bracket rest⟩⟩
  | case7 rest ih =>
      rcases ih with ⟨front, members, tail, hStands, rfl, hTail⟩
      exact ⟨_, _, tail, .plain (by decide) hStands, rfl, hTail⟩
  | case8 c rest hTree hStar hQuestion hBang hOpening hClosing hDash ih =>
      rcases ih with ⟨front, members, tail, hStands, rfl, hTail⟩
      refine ⟨_, _, tail, .plain ?_ hStands, rfl, hTail⟩
      simp only [List.mem_cons, List.not_mem_nil, or_false, not_or]
      exact ⟨hStar, hQuestion, hOpening, hClosing⟩
  | case9 => exact ⟨[], [], [], .nil, rfl, Or.inl rfl⟩

end Mask

end SymbolAtlas

------------------------------------------------------------
-- Sound Masks
------------------------------------------------------------

namespace SymbolAtlas

namespace Mask

theorem marks_negation
    {negated : Bool}
    {text : List Char}
    (hOpened : IsOpened negated text) :
    marks ('[' :: negation negated ++ text) =
      .opening negated :: marks text := by
  cases negated with
  | true => rfl
  | false => exact marks_opening (hOpened rfl)

/- What is behind an opening, and its sign. -/
theorem exists_isOpened
    (text : List Char) :
    ∃ negated rest,
      text = negation negated ++ rest ∧ IsOpened negated rest := by
  by_cases hBang : text.head? = some '!'
  · rcases List.head?_eq_some_iff.mp hBang with ⟨rest, rfl⟩
    exact ⟨true, rest, rfl, fun hFalse => nomatch hFalse⟩
  · exact ⟨false, text, rfl, fun _ => hBang⟩

/- A bracket right behind the opening is a member. -/
theorem readItems_bracket
    (negated : Bool)
    (text : List Char) :
    readItems (.inside negated .empty) (marks (']' :: text)) =
      readItems (.inside negated ⟨[], some ']', false⟩)
        (marks text) := by
  rw [marks, readItems]
  rfl

theorem isSome_items?_class
    {negated : Bool}
    {text members rest : List Char}
    (hOpened : IsOpened negated text)
    (hClass : ReadsClass text members rest) :
    (items? ('[' :: negation negated ++ text)).isSome = true ↔
      ¬ IsReversed members ∧ (items? rest).isSome = true := by
  have hItems :
      items? ('[' :: negation negated ++ text) =
        readItems (.inside negated .empty) (marks text) := by
    rw [items?, marks_negation hOpened, readItems]
  rw [hItems]
  cases hClass with
  | bracket hStands hEnds =>
      rw [readItems_bracket]
      exact isSome_readItems_closed hStands hEnds negated
        (Or.inl rfl)
  | other hFirst hStands hEnds =>
      exact isSome_readItems_closed hStands hEnds negated
        (Or.inr hFirst)

theorem Ends.length_lt
    {tail added rest : List Char}
    (hEnds : Ends tail added rest) :
    rest.length < tail.length := by
  cases hEnds <;> simp

theorem ReadsClass.length_lt
    {text members rest : List Char}
    (hClass : ReadsClass text members rest) :
    rest.length < text.length := by
  cases hClass with
  | bracket _ hEnds =>
      have hTail := hEnds.length_lt
      simp only [List.length_cons, List.length_append]
      omega
  | other _ _ hEnds =>
      have hTail := hEnds.length_lt
      simp only [List.length_append]
      omega

/- A class has an end, or there are no items. -/
theorem readsClass_or_items?_eq_none
    {negated : Bool}
    {text : List Char}
    (hOpened : IsOpened negated text) :
    (∃ members rest, ReadsClass text members rest) ∨
      items? ('[' :: negation negated ++ text) = none := by
  rw [items?, marks_negation hOpened, readItems]
  by_cases hFirst : text.head? = some ']'
  · rcases List.head?_eq_some_iff.mp hFirst with ⟨inner, rfl⟩
    rcases exists_standsFor inner with
      ⟨front, members, tail, hStands, rfl, rfl | hEnds⟩
    · right
      rw [List.append_nil, readItems_bracket]
      exact readItems_open hStands negated (Or.inl rfl)
    · rcases hEnds with ⟨added, rest, hEnds⟩
      exact Or.inl ⟨_, rest, .bracket hStands hEnds⟩
  · rcases exists_standsFor text with
      ⟨front, members, tail, hStands, rfl, rfl | hEnds⟩
    · right
      rw [List.append_nil] at hFirst ⊢
      exact readItems_open hStands negated (Or.inr hFirst)
    · rcases hEnds with ⟨added, rest, hEnds⟩
      exact Or.inl ⟨_, rest, .other hFirst hStands hEnds⟩

/- Outside of classes only an opening can go wrong. -/
theorem isSome_readItems_outside
    {mark : Mark}
    (hMark : ∀ negated, mark ≠ .opening negated)
    (rest : List Mark) :
    (readItems .outside (mark :: rest)).isSome =
      (readItems .outside rest).isSome := by
  cases mark with
  | opening negated => exact absurd rfl (hMark negated)
  | _ => rw [readItems, Option.isSome_map]

/- Two stars with a slash are three marks behind another star. -/
theorem isSome_items?_cons
    {c : Char}
    (hPlain : c ≠ '[')
    (rest : List Char) :
    (items? (c :: rest)).isSome = (items? rest).isSome := by
  have hSkip
      {mark : Mark}
      {source : List Char}
      (hMark : ∀ negated, mark ≠ .opening negated) :
      (readItems .outside (mark :: marks source)).isSome =
        (items? source).isSome :=
    isSome_readItems_outside hMark (marks source)
  generalize hText : c :: rest = text
  rw [items?]
  fun_cases marks text with
  | case1 more =>
      cases hText
      have hNot : ¬ ['*', '/'] <+: '/' :: more := by simp
      have hStar :
          items? ('*' :: '/' :: more) =
            readItems .outside
              (.star :: .plain '/' :: marks more) := by
        rw [items?, marks_star hNot, marks_plain (by decide)]
      rw [hSkip (by simp), hStar,
        isSome_readItems_outside (by simp), hSkip (by simp)]
  | case4 more => cases hText; exact absurd rfl hPlain
  | case5 more hBang => cases hText; exact absurd rfl hPlain
  | case9 => cases hText
  | _ => cases hText; exact hSkip (by simp)

/-
  The items of a text can be read if the text is sound. From
  right to left this follows the grammar; from left to right
  it is an induction on the length, because a class is read as
  a whole.
-/
theorem isSome_items?_iff_isSound
    {text : List Char} :
    (items? text).isSome = true ↔ IsSound text := by
  constructor
  · intro hItems
    induction hLength : text.length using Nat.strong_induction_on
      generalizing text with
    | _ length ih =>
        cases text with
        | nil => exact .nil
        | cons c rest =>
            by_cases hBracket : c = '['
            · subst hBracket
              rcases exists_isOpened rest with
                ⟨negated, inner, rfl, hOpened⟩
              rcases readsClass_or_items?_eq_none hOpened with
                ⟨members, rest, hClass⟩ | hNone
              · have hBoth :=
                  (isSome_items?_class hOpened hClass).mp hItems
                have hShorter := hClass.length_lt
                simp only [List.length_cons, List.length_append]
                  at hLength
                exact .oneOf hOpened hClass hBoth.1
                  (ih rest.length (by omega) hBoth.2 rfl)
              · rw [← List.cons_append, hNone] at hItems
                cases hItems
            · rw [isSome_items?_cons hBracket] at hItems
              rw [List.length_cons] at hLength
              exact .plain hBracket
                (ih rest.length (by omega) hItems rfl)
  · intro hSound
    induction hSound with
    | nil => rfl
    | plain hPlain _ ih => rw [isSome_items?_cons hPlain, ih]
    | oneOf hOpened hClass hOrder _ ih =>
        exact (isSome_items?_class hOpened hClass).mpr ⟨hOrder, ih⟩

end Mask

end SymbolAtlas
