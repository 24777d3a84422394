import SymbolAtlas.Proofs.Text.Markup

/-
  Texts that stand for themselves.

  A text without tags, backslashes and names of pictures is
  shown as it is, also behind the tags that set off the word in
  front of an error.

  Key definitions:
    * `Markup.IsLiteral`
    * `Error.line`, the text that tells an error
  Key theorems:
    * `Markup.partsFrom_literal`
    * `Error.plain_line`
-/

------------------------------------------------------------
-- Literal Texts
------------------------------------------------------------

namespace SymbolAtlas

namespace Markup

/- Nothing in the text has a meaning of its own. -/
structure IsLiteral (text : List Char) : Prop where
  slash : '\\' ∉ text
  tag : ∀ front rest, text = front ++ '[' :: rest → tag? rest = none
  picture : Emoji.replaced text = text

/- A text without backslashes and tags is one part to show. -/
theorem partsFrom_literal
    {text : List Char}
    (hSlash : '\\' ∉ text)
    (hTag : ∀ front rest, text = front ++ '[' :: rest →
      tag? rest = none)
    (fuel : Nat)
    (done : List Part)
    (begun : List Char) :
    partsFrom fuel done begun 0 text =
      .shown (begun.reverse ++ text) :: done := by
  induction text generalizing fuel begun with
  | nil => cases fuel <;> simp [partsFrom, slashes]
  | cons c rest ih =>
      have hRest := ih (List.not_mem_of_not_mem_cons hSlash)
        fun front tail hSplit =>
          hTag (c :: front) tail (congrArg (c :: ·) hSplit)
      have hStep :
          (c :: begun).reverse ++ rest =
            begun.reverse ++ c :: rest := by
        rw [List.reverse_cons, List.append_assoc]
        rfl
      cases fuel with
      | zero => simp [partsFrom, slashes]
      | succ fuel =>
          by_cases hBracket : c = '['
          · subst hBracket
            rw [partsFrom, hTag [] rest rfl]
            exact (hRest fuel ('[' :: begun)).trans
              (congrArg (fun shown => .shown shown :: done) hStep)
          · rw [partsFrom]
            · exact (hRest fuel (c :: begun)).trans
                (congrArg (fun shown => .shown shown :: done) hStep)
            · rintro rfl
              exact hSlash List.mem_cons_self
            · exact hBracket

theorem replaced_cons
    {c : Char}
    (hColon : c ≠ ':')
    (text : List Char) :
    Emoji.replaced (c :: text) = c :: Emoji.replaced text := by
  unfold Emoji.replaced
  rw [List.length_cons, Emoji.replacedFrom, if_pos hColon]

end Markup

end SymbolAtlas

------------------------------------------------------------
-- Errors
------------------------------------------------------------

namespace SymbolAtlas

namespace Error

open Markup

/- The text that tells an error, with its tags. -/
def line (error : Error) : String :=
  "[bold red]Error:[/bold red] " ++ error.message

theorem toList_line
    (error : Error) :
    error.line.toList =
      '[' :: ("bold red]".toList ++ ("Error:".toList ++
        '[' :: ("/bold red]".toList ++
          ' ' :: error.message.toList))) := by
  have hFront :
      "[bold red]Error:[/bold red] ".toList =
        '[' :: ("bold red]".toList ++ ("Error:".toList ++
          '[' :: ("/bold red]".toList ++ [' ']))) := by
    decide
  have hApart (first word last rest : List Char) :
      '[' :: (first ++ (word ++ '[' :: (last ++ [' ']))) ++ rest =
        '[' :: (first ++ (word ++ '[' ::
          (last ++ ' ' :: rest))) := by
    simp
  unfold line
  rw [String.toList_append, hFront]
  exact hApart _ _ _ _

/- Behind both tags a literal message is one part to show. -/
theorem parts_line
    {error : Error}
    (hLiteral : IsLiteral error.message.toList) :
    parts error.line =
      [.shown [], .shown [], .tag "bold red".toList,
        .shown "Error:".toList, .shown [],
        .tag "/bold red".toList,
        .shown (' ' :: error.message.toList)] := by
  have hChars := toList_line error
  have hLength :
      error.line.toList.length =
        "Error:".toList.length +
          (error.message.toList.length + 21 + 1) := by
    have hFirst : "bold red]".toList.length = 9 := rfl
    have hSecond : "/bold red]".toList.length = 10 := rfl
    rw [hChars]
    simp only [List.length_cons, List.length_append, hFirst,
      hSecond]
    omega
  have hFirst (rest : List Char) :
      tag? ("bold red]".toList ++ rest) =
        some ("bold red".toList, rest) :=
    rfl
  have hSecond (rest : List Char) :
      tag? ("/bold red]".toList ++ rest) =
        some ("/bold red".toList, rest) :=
    rfl
  have hSlash : '\\' ∉ ' ' :: error.message.toList :=
    List.not_mem_cons_of_ne_of_not_mem (by decide) hLiteral.slash
  have hTag :
      ∀ front rest,
        ' ' :: error.message.toList = front ++ '[' :: rest →
          tag? rest = none := by
    intro front rest hSplit
    cases front with
    | nil => cases hSplit
    | cons c tail =>
        exact hLiteral.tag tail rest (List.cons.inj hSplit).2
  have hWord : ∀ c ∈ "Error:".toList, IsPlain c := by
    simp [IsPlain]
  unfold parts
  dsimp only
  rw [hLength, hChars, partsFrom, hFirst]
  dsimp only
  rw [partsFrom_plains hWord, partsFrom, hSecond]
  dsimp only
  rw [partsFrom_literal hSlash hTag]
  rfl

/- A message that stands for itself is told as it is. -/
theorem plain_line
    {error : Error}
    (hLiteral : IsLiteral error.message.toList) :
    plain error.line = .ok ("Error: " ++ error.message) := by
  have hMessage :
      Emoji.replaced (' ' :: error.message.toList) =
        ' ' :: error.message.toList := by
    rw [replaced_cons (by decide), hLiteral.picture]
  have hFit :
      (check ["bold red".toList, "/bold red".toList]).isOk =
        true := by
    decide +kernel
  have hTags :
      check ["bold red".toList, "/bold red".toList] = .ok () := by
    cases hCheck :
        check ["bold red".toList, "/bold red".toList] with
    | ok value => rfl
    | error error =>
        rw [hCheck] at hFit
        cases hFit
  have hWord :
      Emoji.replaced "Error:".toList = "Error:".toList := by
    decide
  have hNothing : Emoji.replaced [] = [] := rfl
  have hFront : "Error: ".toList = "Error:".toList ++ [' '] := rfl
  unfold plain
  rw [parts_line hLiteral]
  simp only [tagsOf, shownOf, hTags, hMessage, hWord, hNothing]
  apply congrArg Except.ok
  rw [← String.toList_inj, String.toList_ofList,
    String.toList_append, hFront]
  simp only [List.nil_append, List.append_nil, List.append_assoc,
    List.cons_append]

end Error

end SymbolAtlas
