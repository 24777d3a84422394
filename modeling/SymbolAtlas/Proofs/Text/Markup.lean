import SymbolAtlas.Notice
import SymbolAtlas.Proofs.Attempts

/-
  Texts that can be shown.

  Whether a text can be shown, and why not, is decided by its
  tags alone, in their order. What stands around a path in a
  notice holds no other tag than the two that dim it, whatever
  the path holds: if one notice about a path can be shown, all
  can.

  Key definitions:
    * `Markup.Trails`, what can stand behind a path
  Key theorems:
    * `Markup.map_plain`, `Markup.misworded_plain`
    * `Markup.tagsOf_partsFrom_alike`
    * `Notice.check_waiting`, `Notice.check_building`
-/

------------------------------------------------------------
-- Tags in Order
------------------------------------------------------------

namespace SymbolAtlas

namespace Markup

theorem tagsOf_append
    (first second : List Part) :
    tagsOf (first ++ second) = tagsOf first ++ tagsOf second := by
  induction first with
  | nil => rfl
  | cons part rest ih =>
      cases part with
      | shown chars => exact ih
      | tag body => exact congrArg (body :: ·) ih

theorem tagsOf_reverse
    (parts : List Part) :
    tagsOf parts.reverse = (tagsOf parts).reverse := by
  induction parts with
  | nil => rfl
  | cons part rest ih =>
      rw [List.reverse_cons, tagsOf_append, ih]
      cases part with
      | shown chars => exact List.append_nil _
      | tag body => exact List.reverse_cons.symm

/- Only the tags decide whether a text can be shown. -/
theorem map_plain
    (text : String) :
    (plain text).map (fun _ => ()) = check (tagsOf (parts text)) := by
  unfold plain
  dsimp only
  cases check (tagsOf (parts text)) with
  | error error => rfl
  | ok value => rfl

end Markup

end SymbolAtlas

------------------------------------------------------------
-- Errors of Wording
------------------------------------------------------------

namespace SymbolAtlas

/- All that can go wrong is what the tags say. -/
abbrev Misworded {α : Type} (result : Except Error α) : Prop :=
  FailsWith (fun error => error.family = .wording) result

theorem Look.misworded_normal
    (description : List Char) :
    Misworded (Look.normal description) := by
  unfold normal
  dsimp only
  split
  · exact failsWith_ok _
  · exact failsWith_ok _
  · exact failsWith_error rfl

namespace Markup

theorem misworded_begun
    (name : List Char)
    (extras : Option (List Char)) :
    Misworded (begun name extras) :=
  (Look.misworded_normal name).map _

theorem Begun.misworded_ending
    (look : Begun) :
    Misworded look.ending := by
  unfold ending
  split
  · exact failsWith_ite (failsWith_error rfl) (failsWith_ok _)
  · exact failsWith_ok _

theorem misworded_endLast
    (isMeant : Begun → Bool)
    (looks : List Begun) :
    Misworded (endLast isMeant looks) := by
  unfold endLast
  split
  · next look _ => exact look.misworded_ending.map _
  · exact failsWith_error rfl

theorem Tag.misworded_behind
    (tag : Tag)
    (looks : List Begun) :
    Misworded (tag.behind looks) := by
  unfold behind
  split
  · exact (misworded_begun _ _).map _
  · exact misworded_endLast _ _
  · exact (Look.misworded_normal _).bind fun _ =>
      misworded_endLast _ _

theorem Tag.misworded_paint
    (tag : Tag) :
    Misworded tag.paint := by
  unfold paint
  split
  · exact (misworded_begun _ _).bind fun _ =>
      (Look.misworded_normal _).map _
  · exact failsWith_ok _

theorem misworded_follow
    (tags : List Tag)
    (looks : List Begun) :
    Misworded (follow looks tags) := by
  induction tags generalizing looks with
  | nil => exact failsWith_ok _
  | cons tag rest ih =>
      exact (tag.misworded_behind looks).bind fun next => ih next

theorem misworded_plain
    (text : String) :
    Misworded (plain text) := by
  apply FailsWith.map
  exact (misworded_follow _ []).bind fun _ =>
    failsWith_forM Tag.misworded_paint _

/- What a tag calls has to be readable, and so has a colour. -/
example :
    errorOf? (plain "[@a=%]b[/@a]") = some .unreadHandler ∧
      errorOf? (plain "x[rgb(1,,2)]y") = some .noColour := by
  decide +kernel

end Markup

theorem Notice.misworded_check
    (notice : Notice) :
    Misworded notice.check :=
  (Markup.misworded_plain _).map _

end SymbolAtlas

------------------------------------------------------------
-- Texts Behind a Path
------------------------------------------------------------

namespace SymbolAtlas

namespace Markup

/-
  The text does not go on with a tag that was begun before it,
  and holds the tag `last` and no other one.
-/
structure Trails
    (tail last : List Char) : Prop where
  tag : tag? tail = none
  body : tagBody? tail = none
  parts :
    ∀ fuel done begun passed,
      tail.length < fuel →
      tagsOf (partsFrom fuel done begun passed tail) =
        last :: tagsOf done

/- A character without a meaning of its own. -/
def IsPlain (c : Char) : Prop :=
  c ≠ '\\' ∧ c ≠ '[' ∧ c ≠ ']'

instance
    (c : Char) :
    Decidable (IsPlain c) :=
  inferInstanceAs (Decidable (c ≠ '\\' ∧ c ≠ '[' ∧ c ≠ ']'))

/- A text without a character that has a meaning of its own. -/
def AllPlain (text : String) : Prop :=
  ∀ c ∈ text.toList, IsPlain c

/- Decided along the text; there is no way through all characters. -/
instance
    (text : String) :
    Decidable (AllPlain text) :=
  List.decidableBAll (fun c => IsPlain c) text.toList

theorem partsFrom_plain
    {c : Char}
    (hPlain : IsPlain c)
    (fuel : Nat)
    (done : List Part)
    (begun : List Char)
    (passed : Nat)
    (rest : List Char) :
    partsFrom (fuel + 1) done begun passed (c :: rest) =
      partsFrom fuel done (c :: slashes passed ++ begun) 0 rest := by
  rw [partsFrom]
  · intro hSlash
    exact hPlain.1 hSlash
  · intro hBracket
    exact hPlain.2.1 hBracket

theorem tagBody?_plain
    {c : Char}
    (hPlain : IsPlain c)
    (rest : List Char) :
    tagBody? (c :: rest) =
      (tagBody? rest).map fun (body, r) => (c :: body, r) := by
  rw [tagBody?]
  · intro hClosing
    exact hPlain.2.2 hClosing
  · intro hOpening
    exact hPlain.2.1 hOpening

theorem partsFrom_plains
    {front : List Char}
    (hPlain : ∀ c ∈ front, IsPlain c)
    (fuel : Nat)
    (done : List Part)
    (begun rest : List Char) :
    partsFrom (front.length + fuel) done begun 0 (front ++ rest) =
      partsFrom fuel done (front.reverse ++ begun) 0 rest := by
  induction front generalizing begun with
  | nil =>
      rw [List.length_nil, Nat.zero_add]
      rfl
  | cons c more ih =>
      have hMore : ∀ d ∈ more, IsPlain d :=
        fun d hMem => hPlain d (List.mem_cons_of_mem _ hMem)
      have hLength :
          (c :: more).length + fuel = more.length + fuel + 1 := by
        rw [List.length_cons]
        omega
      rw [hLength, List.cons_append,
        partsFrom_plain (hPlain c List.mem_cons_self), ih hMore,
        List.reverse_cons, List.append_assoc]
      rfl

variable {last : List Char}

/- No tag that was begun ends before another one begins. -/
theorem tagBody?_plains
    {front : List Char}
    (hPlain : ∀ c ∈ front, IsPlain c) :
    tagBody? (front ++ '[' :: last ++ [']']) = none := by
  induction front with
  | nil => rfl
  | cons c rest ih =>
      rw [List.cons_append, List.cons_append,
        tagBody?_plain (hPlain c List.mem_cons_self),
        ih fun d hMem => hPlain d (List.mem_cons_of_mem _ hMem)]
      rfl

theorem tagsOf_partsFrom_plains
    {front : List Char}
    (hPlain : ∀ c ∈ front, IsPlain c)
    (hLast : tag? (last ++ [']']) = some (last, []))
    {fuel : Nat}
    (hFuel : (front ++ '[' :: last ++ [']']).length < fuel)
    (done : List Part)
    (begun : List Char) :
    tagsOf (partsFrom fuel done begun 0
      (front ++ '[' :: last ++ [']'])) = last :: tagsOf done := by
  obtain ⟨less, rfl⟩ : ∃ less, fuel = front.length + (less + 2) := by
    simp only [List.length_append, List.length_cons] at hFuel
    exact ⟨fuel - front.length - 2, by omega⟩
  rw [List.append_assoc, partsFrom_plains hPlain, List.cons_append,
    partsFrom, hLast]
  rfl

/- A tag behind plain characters trails whatever comes first. -/
theorem trails_of_plain
    {plain : List Char}
    (hPlain : ∀ c ∈ plain, IsPlain c)
    (hSome : plain ≠ [])
    (hLast : tag? (last ++ [']']) = some (last, [])) :
    Trails (plain ++ '[' :: last ++ [']']) last := by
  obtain ⟨c, rest, rfl⟩ := List.exists_cons_of_ne_nil hSome
  have hRest : ∀ d ∈ rest, IsPlain d :=
    fun d hMem => hPlain d (List.mem_cons_of_mem _ hMem)
  refine ⟨?_, tagBody?_plains hPlain, ?_⟩
  · rw [List.cons_append, List.cons_append, tag?,
      tagBody?_plains hRest]
    simp
  · intro fuel done begun passed hFuel
    obtain ⟨less, rfl⟩ :=
      Nat.exists_eq_succ_of_ne_zero (Nat.ne_zero_of_lt hFuel)
    -- Behind a plain character no backslash counts any more.
    rw [List.cons_append, List.cons_append,
      partsFrom_plain (hPlain c List.mem_cons_self)]
    apply tagsOf_partsFrom_plains hRest hLast
    simpa using hFuel

/- A tag that is begun is ended before the tail or not at all. -/
theorem tagBody?_append
    {tail last : List Char}
    (hTail : Trails tail last)
    (text : List Char) :
    tagBody? (text ++ tail) =
      (tagBody? text).map fun (body, r) => (body, r ++ tail) := by
  induction text with
  | nil => exact hTail.body
  | cons c rest ih =>
      by_cases hClosing : c = ']'
      · subst hClosing
        rfl
      · by_cases hOpening : c = '['
        · subst hOpening
          rfl
        · have hStep (more : List Char) :
              tagBody? (c :: more) =
                (tagBody? more).map
                  fun (body, r) => (c :: body, r) := by
            rw [tagBody?]
            · exact hClosing
            · exact hOpening
          rw [List.cons_append, hStep, hStep, ih]
          cases tagBody? rest <;> rfl

theorem tag?_append
    {tail last : List Char}
    (hTail : Trails tail last)
    (text : List Char) :
    tag? (text ++ tail) =
      (tag? text).map fun (body, r) => (body, r ++ tail) := by
  cases text with
  | nil => exact hTail.tag
  | cons c rest =>
      rw [List.cons_append, tag?, tag?, tagBody?_append hTail]
      split
      · cases tagBody? rest <;> rfl
      · rfl

theorem length_of_tagBody?
    {text body after : List Char}
    (hBody : tagBody? text = some (body, after)) :
    after.length < text.length := by
  induction text generalizing body with
  | nil => cases hBody
  | cons c rest ih =>
      rw [tagBody?.eq_def] at hBody
      split at hBody
      · cases hBody
      · cases hBody
        simp_all
      · cases hBody
      · next hText =>
          cases hText
          cases hRest : tagBody? rest with
          | none =>
              rw [hRest] at hBody
              cases hBody
          | some found =>
              rw [hRest] at hBody
              cases hBody
              have := ih hRest
              simp
              omega

theorem length_of_tag?
    {text body after : List Char}
    (hTag : tag? text = some (body, after)) :
    after.length < text.length := by
  cases text with
  | nil => cases hTag
  | cons c rest =>
      rw [tag?] at hTag
      split at hTag
      · cases hRest : tagBody? rest with
        | none =>
            rw [hRest] at hTag
            cases hTag
        | some found =>
            rw [hRest] at hTag
            cases hTag
            have := length_of_tagBody? hRest
            simp
            omega
      · cases hTag

/-
  The tags of a text do not depend on what comes before or behind
  it, as long as that comes with no tags of its own.
-/
theorem tagsOf_partsFrom_alike
    {first second last text : List Char}
    (hFirst : Trails first last)
    (hSecond : Trails second last)
    {fuel more : Nat}
    (hFuel : (text ++ first).length < fuel)
    (hMore : (text ++ second).length < more)
    {done others : List Part}
    (hDone : tagsOf done = tagsOf others)
    (begun started : List Char)
    (passed : Nat) :
    tagsOf (partsFrom fuel done begun passed (text ++ first)) =
      tagsOf
        (partsFrom more others started passed
          (text ++ second)) := by
  -- Both texts are read in step; only a whole tag is a longer one.
  induction fuel generalizing text more done others begun started
      passed with
  | zero => exact absurd hFuel (Nat.not_lt_zero _)
  | succ fuel ih =>
      cases text with
      | nil =>
          rw [List.nil_append] at hFuel hMore ⊢
          rw [List.nil_append, hFirst.parts _ _ _ _ hFuel,
            hSecond.parts _ _ _ _ hMore, hDone]
      | cons c rest =>
          obtain ⟨less, rfl⟩ :=
            Nat.exists_eq_succ_of_ne_zero (Nat.ne_zero_of_lt hMore)
          simp only [List.cons_append, List.length_cons,
            Nat.succ_eq_add_one, Nat.add_lt_add_iff_right]
            at hFuel hMore
          rw [List.cons_append, List.cons_append]
          by_cases hSlash : c = '\\'
          · subst hSlash
            exact ih hFuel hMore hDone begun started (passed + 1)
          · by_cases hBracket : c = '['
            · subst hBracket
              rw [partsFrom, partsFrom, tag?_append hFirst,
                tag?_append hSecond]
              cases hTag : tag? rest with
              | none => exact ih hFuel hMore hDone _ _ 0
              | some found =>
                  obtain ⟨body, after⟩ := found
                  have hShorter := length_of_tag? hTag
                  rw [List.length_append] at hFuel hMore
                  apply ih
                  · rw [List.length_append]
                    omega
                  · rw [List.length_append]
                    omega
                  · split
                    · exact hDone
                    · exact congrArg (body :: ·) hDone
            · rw [partsFrom, partsFrom]
              · exact ih hFuel hMore hDone _ _ 0
              · exact hSlash
              · exact hBracket
              · exact hSlash
              · exact hBracket

end Markup

end SymbolAtlas

------------------------------------------------------------
-- Notices about a Path
------------------------------------------------------------

namespace SymbolAtlas

namespace Notice

open Markup

/- A dimmed text is read behind its first tag and its front. -/
theorem tagsOf_dimmed
    {front : List Char}
    (hPlain : ∀ c ∈ front, IsPlain c)
    {rest : List Char}
    {shown : String}
    (hShown : shown.toList = "[dim]".toList ++ (front ++ rest)) :
    ∃ fuel done begun,
      rest.length < fuel ∧
      tagsOf done = ["dim".toList] ∧
      tagsOf (Markup.parts shown) =
        (tagsOf (partsFrom fuel done begun 0 rest)).reverse := by
  have hTag :
      tag? ("dim]".toList ++ (front ++ rest)) =
        some ("dim".toList, front ++ rest) :=
    rfl
  have hLength :
      shown.toList.length + 1 =
        front.length + (rest.length + 5) + 1 := by
    have hFive : "[dim]".toList.length = 5 := rfl
    rw [hShown, List.length_append, List.length_append, hFive]
    omega
  refine ⟨rest.length + 5,
    [.tag "dim".toList, .shown (slashes 0), .shown []],
    front.reverse ++ [], by omega, rfl, ?_⟩
  have hOpening :
      "[dim]".toList ++ (front ++ rest) =
        '[' :: ("dim]".toList ++ (front ++ rest)) :=
    rfl
  unfold Markup.parts
  dsimp only
  rw [tagsOf_reverse, hLength, hShown, hOpening, partsFrom, hTag,
    ← partsFrom_plains hPlain]
  rfl

/-
  Two dimmed texts about one path can be shown or cannot, if what
  stands around the path is plain.
-/
theorem dimmed_alike
    (text : String)
    {front other back behind : String}
    (hFront : AllPlain front)
    (hOther : AllPlain other)
    (hBack : AllPlain back)
    (hBehind : AllPlain behind)
    (hSome : back.toList ≠ [])
    (hMore : behind.toList ≠ []) :
    (plain (dimmed (front ++ text ++ back))).map (fun _ => ()) =
      (plain (dimmed (other ++ text ++ behind))).map
        (fun _ => ()) := by
  have hTail {tail : String}
      (hPlain : AllPlain tail)
      (hSomeTail : tail.toList ≠ []) :
      Trails (tail.toList ++ "[/dim]".toList) "/dim".toList := by
    have hTrails :
        Trails (tail.toList ++ '[' :: "/dim".toList ++ [']'])
          "/dim".toList :=
      trails_of_plain hPlain hSomeTail rfl
    simpa using hTrails
  have hChars (first last : String) :
      (dimmed (first ++ text ++ last)).toList =
        "[dim]".toList ++ (first.toList ++
          (text.toList ++ (last.toList ++ "[/dim]".toList))) := by
    simp [dimmed]
  rcases tagsOf_dimmed hFront (hChars front back) with
    ⟨fuel, done, begun, hFuel, hDone, hFirst⟩
  rcases tagsOf_dimmed hOther (hChars other behind) with
    ⟨more, others, started, hEnough, hOthers, hSecond⟩
  rw [map_plain, map_plain, hFirst, hSecond,
    tagsOf_partsFrom_alike (hTail hBack hSome)
      (hTail hBehind hMore) hFuel hEnough
      (hDone.trans hOthers.symm) begun started]

/- What is told about the lock can be told about the artifact. -/
theorem check_waiting
    (stem : String) :
    (Notice.waiting (stem ++ ".json.lock")).check =
      (Notice.cacheHit (stem ++ ".json")).check := by
  change
    (plain (dimmed
      ("Waiting for lock " ++ (stem ++ ".json.lock")))).map _ =
    (plain (dimmed ("Cache hit " ++ (stem ++ ".json")))).map _
  rw [← String.append_assoc, ← String.append_assoc]
  apply dimmed_alike stem <;> decide

theorem check_building
    (stem : String) :
    (Notice.building (stem ++ ".json")).check =
      (Notice.cacheHit (stem ++ ".json")).check := by
  have hBehind :
      "Cache " ++ (stem ++ ".json") ++ " missing, building" =
        "Cache " ++ stem ++ ".json missing, building" := by
    rw [← String.append_assoc, String.append_assoc]
    rfl
  change
    (plain (dimmed
      ("Cache " ++ (stem ++ ".json") ++
        " missing, building"))).map _ =
    (plain (dimmed ("Cache hit " ++ (stem ++ ".json")))).map _
  rw [hBehind, ← String.append_assoc]
  apply dimmed_alike stem <;> decide

end Notice

end SymbolAtlas
