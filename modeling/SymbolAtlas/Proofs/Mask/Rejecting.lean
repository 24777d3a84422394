import SymbolAtlas.Proofs.Mask.Classes

/-
  Which masks are rejected.

  A class is opened by a bracket and ends at the next closing
  one that is not its first member. A mask should be rejected if
  it has a class without an end, or one with a range that runs
  backwards. So it is where no class holds a wildcard or `[!`. A
  star or question mark ends the class it stands in, and what
  these marks stand for in a class can begin or end a range.

  Key definitions:
    * `Mask.IsBody`, `Mask.BetweenClasses`
    * `Mask.IsMalformed`, `Mask.HoldsWildcard`

  Key theorems:
    * `Mask.isSound_iff_of_no_wildcards`
    * `Mask.rejects_what_is_unsound`
-/

------------------------------------------------------------
-- Classes as They Are Meant
------------------------------------------------------------

namespace SymbolAtlas

namespace Mask

/- What a class has inside: no bracket, unless it comes first. -/
def IsBody (negated : Bool) (body : List Char) : Prop :=
  IsOpened negated body ∧ ']' ∉ body.tail

/- Characters outside of classes, and whole classes. -/
inductive IsClosed : List Char → Prop
| nil : IsClosed []
| plain {c : Char} {rest : List Char}
    (hPlain : c ≠ '[')
    (hRest : IsClosed rest) :
    IsClosed (c :: rest)
| oneOf {negated : Bool} {body rest : List Char}
    (hBody : IsBody negated body)
    (hSome : body ≠ [])
    (hRest : IsClosed rest) :
    IsClosed ('[' :: negation negated ++ body ++ ']' :: rest)

/- Somewhere, but not within a class, the text goes on so. -/
def BetweenClasses
    (P : List Char → Prop)
    (text : List Char) : Prop :=
  ∃ front back, text = front ++ back ∧ IsClosed front ∧ P back

/- A class starts here and has no end. -/
def IsLeftOpen (text : List Char) : Prop :=
  ∃ negated body,
    text = '[' :: negation negated ++ body ∧ IsBody negated body

/- A class starts here and has a range that runs backwards. -/
def IsBackward (text : List Char) : Prop :=
  ∃ negated body rest,
    text = '[' :: negation negated ++ body ++ ']' :: rest ∧
      IsBody negated body ∧ IsReversed body

/- Some class is left open or has a backward range. -/
def IsMalformed (text : List Char) : Prop :=
  BetweenClasses IsLeftOpen text ∨ BetweenClasses IsBackward text

/- A class starts here and holds a wildcard or a sign. -/
def HoldsWildcard (text : List Char) : Prop :=
  ∃ negated body rest,
    text = '[' :: negation negated ++ body ++ rest ∧
      IsBody negated body ∧
      ('*' ∈ body ∨ '?' ∈ body ∨ ['[', '!'] <:+: body)

/- It is said of classes only. -/
def IsOfClasses (P : List Char → Prop) : Prop :=
  ∀ text, P text → text.head? = some '['

theorem isOfClasses_isLeftOpen : IsOfClasses IsLeftOpen := by
  rintro text ⟨negated, body, rfl, -⟩
  rfl

theorem isOfClasses_isBackward : IsOfClasses IsBackward := by
  rintro text ⟨negated, body, rest, rfl, -⟩
  rfl

theorem isOfClasses_holdsWildcard :
    IsOfClasses HoldsWildcard := by
  rintro text ⟨negated, body, rest, rfl, -⟩
  rfl

section BetweenClasses

variable {P : List Char → Prop} {negated : Bool}
variable {body rest : List Char}

theorem not_betweenClasses_nil
    (hClasses : IsOfClasses P) :
    ¬ BetweenClasses P [] := by
  rintro ⟨front, back, hText, -, hBack⟩
  have hHead := hClasses back hBack
  rw [(List.nil_eq_append_iff.mp hText).2] at hHead
  cases hHead

theorem betweenClasses_cons_iff
    (hClasses : IsOfClasses P)
    {c : Char}
    (hPlain : c ≠ '[') :
    BetweenClasses P (c :: rest) ↔ BetweenClasses P rest := by
  constructor
  · rintro ⟨front, back, hText, hFront, hBack⟩
    cases hFront with
    | nil =>
        have hHead := hClasses back hBack
        rw [← List.nil_append back, ← hText] at hHead
        exact absurd (Option.some.inj hHead) hPlain
    | plain _ hRest =>
        cases hText
        exact ⟨_, back, rfl, hRest, hBack⟩
    | oneOf _ _ _ =>
        cases hText
        exact absurd rfl hPlain
  · rintro ⟨front, back, rfl, hFront, hBack⟩
    exact ⟨c :: front, back, rfl, .plain hPlain hFront, hBack⟩

/- The sign of a class is read off the text. -/
theorem negation_append_inj
    {other : Bool}
    {text more : List Char}
    (hOpened : IsOpened negated text)
    (hOther : IsOpened other more)
    (hEq : negation negated ++ text = negation other ++ more) :
    negated = other ∧ text = more := by
  cases negated <;> cases other
  · exact ⟨rfl, hEq⟩
  · rw [show text = '!' :: more from hEq] at hOpened
    exact absurd rfl (hOpened rfl)
  · rw [show more = '!' :: text from hEq.symm] at hOther
    exact absurd rfl (hOther rfl)
  · exact ⟨rfl, List.tail_eq_of_cons_eq hEq⟩

/- The body of a class ends at the first bracket behind it. -/
theorem body_append_inj
    {other more : List Char}
    (hBody : ']' ∉ body.tail)
    (hOther : ']' ∉ other.tail)
    (hSome : body ≠ [])
    (hSomeOther : other ≠ [])
    (hEq : body ++ ']' :: rest = other ++ ']' :: more) :
    body = other ∧ rest = more := by
  rcases List.append_eq_append_iff.mp hEq with
    ⟨between, rfl, hRest⟩ | ⟨between, rfl, hMore⟩
  · cases between with
    | nil =>
        cases hRest
        exact ⟨by simp, rfl⟩
    | cons c others =>
        cases hRest
        simp [List.tail_append_of_ne_nil hSome] at hOther
  · cases between with
    | nil =>
        cases hMore
        exact ⟨by simp, rfl⟩
    | cons c others =>
        cases hMore
        simp [List.tail_append_of_ne_nil hSomeOther] at hBody

theorem IsBody.isOpened_append
    (hBody : IsBody negated body)
    (hSome : body ≠ [])
    (more : List Char) :
    IsOpened negated (body ++ more) := by
  cases body with
  | nil => exact absurd rfl hSome
  | cons c others => exact hBody.1

/- Behind a class the text is looked at as if it stood alone. -/
theorem betweenClasses_class_iff
    (hBody : IsBody negated body)
    (hSome : body ≠ []) :
    BetweenClasses P
        ('[' :: negation negated ++ body ++ ']' :: rest) ↔
      P ('[' :: negation negated ++ body ++ ']' :: rest) ∨
        BetweenClasses P rest := by
  constructor
  · rintro ⟨front, back, hText, hFront, hBack⟩
    cases hFront with
    | nil =>
        rw [List.nil_append] at hText
        rw [hText]
        exact Or.inl hBack
    | plain hPlain _ =>
        have hHead := congrArg List.head? hText
        exact absurd (Option.some.inj hHead).symm hPlain
    | @oneOf other otherBody more hOther hSomeOther hMore =>
        right
        have hEq :
            negation negated ++ (body ++ ']' :: rest) =
              negation other ++
                (otherBody ++ ']' :: (more ++ back)) := by
          simpa using hText
        have hSame :=
          (negation_append_inj (hBody.isOpened_append hSome _)
            (hOther.isOpened_append hSomeOther _) hEq).2
        have hRest :=
          (body_append_inj hBody.2 hOther.2 hSome hSomeOther
            hSame).2
        exact ⟨more, back, hRest, hMore, hBack⟩
  · rintro (hHere | ⟨front, back, rfl, hFront, hBack⟩)
    · exact ⟨[], _, rfl, .nil, hHere⟩
    · exact ⟨_, back, by simp, .oneOf hBody hSome hFront, hBack⟩

theorem not_isLeftOpen_class
    (hBody : IsBody negated body)
    (hSome : body ≠ []) :
    ¬ IsLeftOpen
      ('[' :: negation negated ++ body ++ ']' :: rest) := by
  rintro ⟨other, otherBody, hText, hOther⟩
  have hEq :
      negation negated ++ (body ++ ']' :: rest) =
        negation other ++ otherBody := by
    simpa using hText
  have hSame :=
    (negation_append_inj (hBody.isOpened_append hSome _)
      hOther.1 hEq).2
  have hBracket := hOther.2
  rw [← hSame, List.tail_append_of_ne_nil hSome] at hBracket
  simp at hBracket

theorem isBackward_class_iff
    (hBody : IsBody negated body)
    (hSome : body ≠ []) :
    IsBackward
        ('[' :: negation negated ++ body ++ ']' :: rest) ↔
      IsReversed body := by
  constructor
  · rintro ⟨other, otherBody, more, hText, hOther, hReversed⟩
    have hSomeOther : otherBody ≠ [] := by
      rintro rfl
      simp [IsReversed, spans] at hReversed
    have hEq :
        negation negated ++ (body ++ ']' :: rest) =
          negation other ++ (otherBody ++ ']' :: more) := by
      simpa using hText
    have hSame :=
      (negation_append_inj (hBody.isOpened_append hSome _)
        (hOther.isOpened_append hSomeOther _) hEq).2
    rw [(body_append_inj hBody.2 hOther.2 hSome hSomeOther
      hSame).1]
    exact hReversed
  · intro hReversed
    exact ⟨negated, body, rest, rfl, hBody, hReversed⟩

/- Behind an opening a class has an end or none. -/
theorem exists_body
    {text : List Char}
    (hOpened : IsOpened negated text) :
    IsBody negated text ∨
      ∃ body rest,
        text = body ++ ']' :: rest ∧ IsBody negated body ∧
          body ≠ [] := by
  cases text with
  | nil => exact Or.inl ⟨hOpened, by simp⟩
  | cons c more =>
      by_cases hBracket : ']' ∈ more
      · rcases List.eq_append_cons_of_mem hBracket with
          ⟨inner, rest, rfl, hInner⟩
        exact Or.inr ⟨c :: inner, rest, rfl, ⟨hOpened, hInner⟩,
          by simp⟩
      · exact Or.inl ⟨hOpened, hBracket⟩

end BetweenClasses

/- No wildcard and no sign is among the characters. -/
def IsPlainBody (body : List Char) : Prop :=
  ¬ ('*' ∈ body ∨ '?' ∈ body ∨ ['[', '!'] <:+: body)

theorem IsPlainBody.tail
    {c : Char}
    {rest : List Char}
    (hPlain : IsPlainBody (c :: rest)) :
    IsPlainBody rest := by
  rintro (hStar | hQuestion | hBang)
  · exact hPlain (Or.inl (List.mem_cons_of_mem c hStar))
  · exact hPlain
      (Or.inr (Or.inl (List.mem_cons_of_mem c hQuestion)))
  · exact hPlain (Or.inr (Or.inr (List.infix_cons hBang)))

/- Without wildcards and signs, members stand for themselves. -/
theorem IsPlainBody.standsFor
    {body : List Char}
    (hPlain : IsPlainBody body)
    (hBracket : ']' ∉ body) :
    StandsFor body body := by
  induction body with
  | nil => exact .nil
  | cons c rest ih =>
      rw [List.mem_cons, not_or] at hBracket
      have hRest := ih hPlain.tail hBracket.2
      by_cases hOpening : c = '['
      · subst hOpening
        refine .opening ?_ hRest
        intro hHead
        rcases List.head?_eq_some_iff.mp hHead with ⟨more, rfl⟩
        exact hPlain (Or.inr (Or.inr ⟨[], more, rfl⟩))
      · refine .plain ?_ hRest
        intro hSpecial
        simp only [List.mem_cons, List.not_mem_nil, or_false]
          at hSpecial
        rcases hSpecial with rfl | rfl | hC | rfl
        · exact hPlain (Or.inl List.mem_cons_self)
        · exact hPlain (Or.inr (Or.inl List.mem_cons_self))
        · exact hOpening hC
        · exact hBracket.1 rfl

/- So a class is read as it is meant, -/
theorem IsPlainBody.readsClass
    {body : List Char}
    (hPlain : IsPlainBody body)
    (hSome : body ≠ [])
    (hBracket : ']' ∉ body.tail)
    (rest : List Char) :
    ReadsClass (body ++ ']' :: rest) body rest := by
  cases body with
  | nil => exact absurd rfl hSome
  | cons c more =>
      by_cases hFirst : c = ']'
      · subst hFirst
        simpa using ReadsClass.bracket
          (hPlain.tail.standsFor hBracket) (.bracket rest)
      · have hAll : ']' ∉ c :: more := by
          rw [List.mem_cons, not_or]
          exact ⟨Ne.symm hFirst, hBracket⟩
        simpa using ReadsClass.other (by simpa using hFirst)
          (hPlain.standsFor hAll) (.bracket rest)

/- and one without an end has no items. -/
theorem IsPlainBody.items?_eq_none
    {negated : Bool}
    {body : List Char}
    (hPlain : IsPlainBody body)
    (hBody : IsBody negated body) :
    items? ('[' :: negation negated ++ body) = none := by
  rw [items?, marks_negation hBody.1, readItems]
  by_cases hFirst : body.head? = some ']'
  · rcases List.head?_eq_some_iff.mp hFirst with ⟨more, rfl⟩
    rw [readItems_bracket]
    exact readItems_open (hPlain.tail.standsFor hBody.2) negated
      (Or.inl rfl)
  · have hAll : ']' ∉ body := by
      cases body with
      | nil => simp
      | cons c more =>
          rw [List.mem_cons, not_or]
          exact ⟨fun hC => hFirst (by rw [hC]; rfl), hBody.2⟩
    exact readItems_open (hPlain.standsFor hAll) negated
      (Or.inr hFirst)

theorem IsPlainBody.isSome_items?_iff
    {negated : Bool}
    {body rest : List Char}
    (hPlain : IsPlainBody body)
    (hBody : IsBody negated body)
    (hSome : body ≠ []) :
    (items? ('[' :: negation negated ++ body ++ ']' :: rest)).isSome
        = true ↔
      ¬ IsReversed body ∧ (items? rest).isSome = true := by
  have hClass := hPlain.readsClass hSome hBody.2 rest
  rw [List.append_assoc]
  exact isSome_items?_class (hBody.isOpened_append hSome _) hClass

theorem not_isMalformed_nil : ¬ IsMalformed [] := by
  rintro (hOpen | hBackward)
  · exact not_betweenClasses_nil isOfClasses_isLeftOpen hOpen
  · exact not_betweenClasses_nil isOfClasses_isBackward hBackward

theorem isMalformed_cons_iff
    {c : Char}
    (hPlain : c ≠ '[')
    {rest : List Char} :
    IsMalformed (c :: rest) ↔ IsMalformed rest := by
  unfold IsMalformed
  rw [betweenClasses_cons_iff isOfClasses_isLeftOpen hPlain,
    betweenClasses_cons_iff isOfClasses_isBackward hPlain]

theorem isMalformed_class_iff
    {negated : Bool}
    {body rest : List Char}
    (hBody : IsBody negated body)
    (hSome : body ≠ []) :
    IsMalformed ('[' :: negation negated ++ body ++ ']' :: rest) ↔
      IsReversed body ∨ IsMalformed rest := by
  unfold IsMalformed
  rw [betweenClasses_class_iff hBody hSome,
    betweenClasses_class_iff hBody hSome,
    isBackward_class_iff hBody hSome,
    or_iff_right (not_isLeftOpen_class hBody hSome)]
  exact or_left_comm

/-
  Without wildcards in its classes a mask is sound if none of
  them is left open or has a range that runs backwards. The
  induction is on the length, class by class.
-/
theorem isSound_iff_of_no_wildcards
    {text : List Char}
    (hWild : ¬ BetweenClasses HoldsWildcard text) :
    IsSound text ↔ ¬ IsMalformed text := by
  rw [← isSome_items?_iff_isSound]
  induction hLength : text.length using Nat.strong_induction_on
    generalizing text with
  | _ length ih =>
      cases text with
      | nil => exact iff_of_true rfl not_isMalformed_nil
      | cons c rest =>
          rw [List.length_cons] at hLength
          by_cases hBracket : c = '['
          · subst hBracket
            rcases exists_isOpened rest with
              ⟨negated, inner, rfl, hOpened⟩
            rw [← List.cons_append] at hWild ⊢
            have hPlain
                {body rest : List Char}
                (hInner : inner = body ++ rest)
                (hBody : IsBody negated body) :
                IsPlainBody body := by
              intro hHolds
              refine hWild ⟨[], _, rfl, .nil, ?_⟩
              exact ⟨negated, body, rest, by simp [hInner], hBody,
                hHolds⟩
            rcases exists_body hOpened with
              hBody | ⟨body, rest, rfl, hBody, hSome⟩
            · have hNone :=
                (hPlain (List.append_nil inner).symm
                  hBody).items?_eq_none hBody
              rw [hNone]
              refine iff_of_false (by simp) (not_not_intro ?_)
              exact Or.inl ⟨[], _, rfl, .nil, negated, inner, rfl,
                hBody⟩
            · rw [← List.append_assoc] at hWild ⊢
              rw [betweenClasses_class_iff hBody hSome, not_or]
                at hWild
              simp only [List.length_append, List.length_cons]
                at hLength
              rw [(hPlain rfl hBody).isSome_items?_iff hBody hSome,
                isMalformed_class_iff hBody hSome,
                ih rest.length (by omega) hWild.2 rfl, not_or]
          · rw [betweenClasses_cons_iff isOfClasses_holdsWildcard
              hBracket] at hWild
            rw [isMalformed_cons_iff hBracket,
              isSome_items?_cons hBracket]
            exact ih rest.length (by omega) hWild rfl

end Mask

end SymbolAtlas

------------------------------------------------------------
-- Rejected Masks
------------------------------------------------------------

namespace SymbolAtlas

namespace Mask

/- A mask has a pattern if its text has items. -/
theorem isSome_pattern?
    (text : List Char) :
    (pattern? text).isSome = (items? text).isSome := by
  fun_cases pattern? text with
  | case1 => rfl
  | case2 rest =>
      rw [Option.isSome_map, isSome_items?_cons (by decide),
        isSome_items?_cons (by decide)]
  | case3 _ _ _ => rw [Option.isSome_map]

/-
  A mask is compiled if its text is sound, and is rejected
  otherwise. If no class holds a wildcard or a sign, the
  rejected masks are those with a class that is left open or
  with a range that runs backwards.
-/
theorem rejects_what_is_unsound
    (text : String) :
    ((∃ mask, compile text = .ok mask) ↔
        IsSound (slashed text)) ∧
      (compile text = .error (.invalidMask text) ↔
        ¬ IsSound (slashed text)) ∧
      (¬ BetweenClasses HoldsWildcard (slashed text) →
        (compile text = .error (.invalidMask text) ↔
          IsMalformed (slashed text))) := by
  have hPattern :
      (pattern? (slashed text)).isSome = true ↔
        IsSound (slashed text) := by
    rw [isSome_pattern?, isSome_items?_iff_isSound]
  have hOk :
      (∃ mask, compile text = .ok mask) ↔
        (pattern? (slashed text)).isSome = true := by
    unfold compile
    cases hFound : pattern? (slashed text) <;>
      simp [slashed] at hFound <;> simp [hFound]
  have hError :
      compile text = .error (.invalidMask text) ↔
        ¬ (pattern? (slashed text)).isSome = true := by
    unfold compile
    cases hFound : pattern? (slashed text) <;>
      simp [slashed] at hFound <;> simp [hFound]
  refine ⟨hOk.trans hPattern,
    hError.trans (not_congr hPattern), fun hWild => ?_⟩
  rw [hError, hPattern, isSound_iff_of_no_wildcards hWild, not_not]

/-
  A star ends the class that it stands in, so a mask is compiled
  although its class is left open; without the star it is
  rejected. In another class stars with their slash end in a
  question mark, and a range from there runs backwards.
-/
theorem wildcards_in_classes :
    (IsMalformed (slashed "[a*") ∧
        ∃ mask, compile "[a*" = .ok mask) ∧
      (IsMalformed (slashed "[a") ∧
        compile "[a" = .error (.invalidMask "[a")) ∧
      (¬ IsMalformed (slashed "[**/-9]") ∧
        compile "[**/-9]" = .error (.invalidMask "[**/-9]")) := by
  have hLeftOpen
      {text : String}
      {body : List Char}
      (hText : slashed text = '[' :: body)
      (hBody : IsBody false body) :
      IsMalformed (slashed text) :=
    Or.inl ⟨[], _, hText, .nil, false, body, rfl, hBody⟩
  have hStarText : slashed "[a*" = ['[', 'a', '*'] := by decide
  have hOpenText : slashed "[a" = ['[', 'a'] := by decide
  have hTreeText :
      slashed "[**/-9]" =
        '[' :: negation false ++ ['*', '*', '/', '-', '9'] ++
          [']'] := by
    decide
  refine ⟨⟨?_, ?_⟩, ⟨?_, ?_⟩, ?_, ?_⟩
  · exact hLeftOpen hStarText ⟨fun _ => by decide, by decide⟩
  · rw [(rejects_what_is_unsound "[a*").1, hStarText]
    have hClass :
        ReadsClass ['a', '*'] ['a', '[', '^', '/'] [] :=
      .other (by decide) (.plain (by decide) .nil)
        (.star (by decide))
    have hSound :
        IsSound ('[' :: negation false ++ ['a', '*']) :=
      .oneOf (fun _ => by decide) hClass (by decide) .nil
    exact hSound
  · exact hLeftOpen hOpenText ⟨fun _ => by decide, by decide⟩
  · rw [(rejects_what_is_unsound "[a").2.2]
    · exact hLeftOpen hOpenText ⟨fun _ => by decide, by decide⟩
    · rw [hOpenText]
      rintro ⟨front, back, hText, -, negated, body, rest, rfl, -,
        hHolds⟩
      have hMem : ∀ c ∈ body, c ∈ ['[', 'a'] := by
        intro c hC
        rw [hText]
        simp [hC]
      rcases hHolds with hStar | hQuestion | hBang
      · exact absurd (hMem _ hStar) (by decide)
      · exact absurd (hMem _ hQuestion) (by decide)
      · exact absurd (hMem '!' (hBang.subset (by simp)))
          (by decide)
  · rw [hTreeText,
      isMalformed_class_iff ⟨fun _ => by decide, by decide⟩
        (by decide)]
    rintro (hReversed | hRest)
    · exact absurd hReversed (by decide)
    · exact not_isMalformed_nil hRest
  · rw [(rejects_what_is_unsound "[**/-9]").2.1,
      ← isSome_items?_iff_isSound, hTreeText]
    decide

end Mask

end SymbolAtlas
