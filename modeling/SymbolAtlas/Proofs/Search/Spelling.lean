import SymbolAtlas.Proofs.Search.Alike
import SymbolAtlas.Proofs.Search.Starts

/-
  Texts by their names and slashes.

  A text is names with slashes between them, perhaps with some
  slashes in front and behind. Escaping its brackets changes the
  names only, and comes undone. More slashes between two names
  lead no further than one.

  Key definitions:
    * `Path.Spelled`, `Path.Stands`, `Path.Echoes`
  Key theorems:
    * `Path.unescapeBrackets_escapeBrackets`
    * `Path.hasMagic_escapeBrackets`
    * `Path.exists_spelled`, `Path.Spelled.escape`
    * `Path.Echoes.child`
-/

------------------------------------------------------------
-- Escaped Texts
------------------------------------------------------------

namespace SymbolAtlas

namespace Path

/- No character but a bracket can open a class. -/
theorem unescapeChars_cons
    {c : Char}
    (hC : c ≠ '[')
    (rest : List Char) :
    unescapeChars (c :: rest) = c :: unescapeChars rest := by
  rw [unescapeChars]
  rintro other more rfl -
  exact hC rfl

theorem unescapeChars_escaped
    (chars : List Char) :
    unescapeChars (chars.flatMap escapeBracket) = chars := by
  induction chars with
  | nil => rfl
  | cons c rest ih =>
      rw [List.flatMap_cons]
      unfold escapeBracket
      split
      · next hBracket =>
          change unescapeChars ('[' :: c :: ']' :: _) = _
          rw [unescapeChars, if_pos hBracket]
          exact congrArg (c :: ·) ih
      · next hBracket =>
          have hC : c ≠ '[' := by
            rintro rfl
            exact hBracket rfl
          rw [List.singleton_append, unescapeChars_cons hC]
          exact congrArg (c :: ·) ih

/- Escaped brackets come back. -/
theorem unescapeBrackets_escapeBrackets
    (path : String) :
    unescapeBrackets (escapeBrackets path) = path := by
  unfold unescapeBrackets escapeBrackets
  rw [String.toList_ofList, unescapeChars_escaped,
    String.ofList_toList]

@[simp] theorem toList_escapeBrackets
    (text : String) :
    (escapeBrackets text).toList =
      text.toList.flatMap escapeBracket := by
  unfold escapeBrackets
  rw [String.toList_ofList]

theorem escapeBrackets_append
    (text more : String) :
    escapeBrackets (text ++ more) =
      escapeBrackets text ++ escapeBrackets more := by
  apply String.toList_injective
  simp

theorem escapeBrackets_slash
    (text : String) :
    escapeBrackets (text ++ "/") = escapeBrackets text ++ "/" := by
  rw [escapeBrackets_append]
  rfl

theorem forall_mem_append
    {text more : String}
    {P : Char → Prop} :
    (∀ c ∈ (text ++ more).toList, P c) ↔
      (∀ c ∈ text.toList, P c) ∧ ∀ c ∈ more.toList, P c := by
  rw [String.toList_append, List.forall_mem_append]

/- A text is magic when escaped if it has a bracket. -/
theorem hasMagic_escapeBrackets
    {text : String}
    (hChars : ∀ c ∈ text.toList, c ∉ ['*', '?']) :
    Glob.hasMagic (escapeBrackets text).toList =
      text.toList.any isBracket := by
  have hOne :
      ∀ c ∈ text.toList,
        (escapeBracket c).any Glob.isMagic = isBracket c := by
    intro c hC
    have hOther := hChars c hC
    unfold escapeBracket
    split
    · next hBracket => simp [Glob.isMagic, hBracket]
    · next hBracket => grind [Glob.isMagic, isBracket]
  rw [toList_escapeBrackets]
  unfold Glob.hasMagic
  rw [List.any_flatMap, Bool.eq_iff_iff, List.any_eq_true,
    List.any_eq_true]
  exact exists_congr fun c => and_congr_right fun hC => by
    rw [hOne c hC]

theorem escapeBrackets_of_no_bracket
    {text : String}
    (hPlain : text.toList.any isBracket = false) :
    escapeBrackets text = text := by
  rw [List.any_eq_false] at hPlain
  have hSame :
      ∀ c ∈ text.toList, escapeBracket c = [c] :=
    fun c hC => if_neg (hPlain c hC)
  apply String.toList_injective
  rw [toList_escapeBrackets, List.flatMap_congr hSame]
  simp

end Path

end SymbolAtlas

------------------------------------------------------------
-- Texts by Their Slashes
------------------------------------------------------------

namespace SymbolAtlas

namespace Path

def slashes (count : Nat) : String :=
  String.ofList (List.replicate count '/')

@[simp] theorem toList_slashes
    (count : Nat) :
    (slashes count).toList = List.replicate count '/' := by
  unfold slashes
  rw [String.toList_ofList]

/-
  Names with slashes between them: a first one, which slashes
  may stand in front of, and next ones behind slashes.
-/
inductive Spelled : String → Prop
| first (count : Nat) {last : String}
    (hSlash : '/' ∉ last.toList)
    (hLast : last ≠ "") :
    Spelled (slashes count ++ last)
| next {front : String} (count : Nat) {last : String}
    (hFront : Spelled front)
    (hSlash : '/' ∉ last.toList)
    (hLast : last ≠ "") :
    Spelled (front ++ slashes (count + 1) ++ last)

variable {text : String}

theorem getLast?_append_of_not_mem
    {front : List Char}
    {last : String}
    (hSlash : '/' ∉ last.toList)
    (hLast : last ≠ "") :
    (front ++ last.toList).getLast? ≠ some '/' := by
  have hSome : last.toList ≠ [] := by simpa using hLast
  rw [List.getLast?_append_of_ne_nil _ hSome]
  intro hEnd
  exact hSlash (List.mem_of_getLast? hEnd)

theorem Spelled.getLast?_ne
    (hSpelled : Spelled text) :
    text.toList.getLast? ≠ some '/' := by
  cases hSpelled with
  | first count hSlash hLast =>
      rw [String.toList_append]
      exact getLast?_append_of_not_mem hSlash hLast
  | next count hFront hSlash hLast =>
      rw [String.toList_append]
      exact getLast?_append_of_not_mem hSlash hLast

theorem Spelled.ne_empty
    (hSpelled : Spelled text) :
    text ≠ "" := by
  cases hSpelled with
  | first count hSlash hLast => simp [hLast]
  | next count hFront hSlash hLast => simp [hLast]

/- A character behind a name becomes part of it. -/
theorem Spelled.append_char
    (hSpelled : Spelled text)
    {c : Char}
    (hC : c ≠ '/') :
    Spelled (text ++ String.ofList [c]) := by
  have hMore {last : String} (hSlash : '/' ∉ last.toList) :
      '/' ∉ (last ++ String.ofList [c]).toList := by
    simp [hSlash, hC.symm]
  cases hSpelled with
  | first count hSlash hLast =>
      rw [String.append_assoc]
      exact .first count (hMore hSlash) (by simp)
  | next count hFront hSlash hLast =>
      rw [String.append_assoc]
      exact .next count hFront (hMore hSlash) (by simp)

/- Any text is slashes, behind spelled names if it has some. -/
theorem exists_spelled
    (text : String) :
    ∃ count,
      text = slashes count ∨
        ∃ front, Spelled front ∧ text = front ++ slashes count := by
  obtain ⟨chars, rfl⟩ : ∃ chars, text = String.ofList chars :=
    ⟨text.toList, by simp⟩
  induction chars using List.reverseRecOn with
  | nil => exact ⟨0, .inl rfl⟩
  | append_singleton chars c ih =>
      rcases ih with ⟨count, hChars⟩
      rw [String.ofList_append]
      by_cases hC : c = '/'
      · subst hC
        have hMore :
            slashes count ++ String.ofList ['/'] =
              slashes (count + 1) := by
          apply String.toList_injective
          simp [List.replicate_succ']
        refine ⟨count + 1, ?_⟩
        rcases hChars with hChars | ⟨front, hFront, hChars⟩
        · rw [hChars, hMore]
          exact .inl rfl
        · rw [hChars, String.append_assoc, hMore]
          exact .inr ⟨front, hFront, rfl⟩
      · refine ⟨0, .inr ⟨_, ?_, (String.append_empty).symm⟩⟩
        rcases hChars with hChars | ⟨front, hFront, hChars⟩
        · rw [hChars]
          exact .first count (by simpa using Ne.symm hC) (by simp)
        · rw [hChars]
          cases count with
          | zero =>
              have hNone : front ++ slashes 0 = front :=
                String.append_empty
              rw [hNone]
              exact hFront.append_char hC
          | succ count =>
              exact .next count hFront
                (by simpa using Ne.symm hC) (by simp)

end Path

end SymbolAtlas

------------------------------------------------------------
-- Escaped Names
------------------------------------------------------------

namespace SymbolAtlas

namespace Path

variable {text : String}

theorem any_isBracket_slashes
    (count : Nat) :
    (slashes count).toList.any isBracket = false := by
  rw [toList_slashes, List.any_eq_false]
  intro c hC
  rw [List.eq_of_mem_replicate hC]
  decide

theorem escapeBrackets_slashes
    (count : Nat) :
    escapeBrackets (slashes count) = slashes count :=
  escapeBrackets_of_no_bracket (any_isBracket_slashes count)

theorem not_mem_escapeBrackets
    (hSlash : '/' ∉ text.toList) :
    '/' ∉ (escapeBrackets text).toList := by
  rw [mem_escapeBrackets_iff rfl]
  exact hSlash

theorem escapeBrackets_ne_empty
    (hSome : text ≠ "") :
    escapeBrackets text ≠ "" :=
  fun hEmpty => hSome (eq_empty_of_escapeBrackets hEmpty)

/- Escaping leaves the slashes where they are. -/
theorem Spelled.escape
    (hSpelled : Spelled text) :
    Spelled (escapeBrackets text) := by
  induction hSpelled with
  | first count hSlash hLast =>
      rw [escapeBrackets_append, escapeBrackets_slashes]
      exact .first count (not_mem_escapeBrackets hSlash)
        (escapeBrackets_ne_empty hLast)
  | next count hFront hSlash hLast ih =>
      rw [escapeBrackets_append, escapeBrackets_append,
        escapeBrackets_slashes]
      exact .next count ih (not_mem_escapeBrackets hSlash)
        (escapeBrackets_ne_empty hLast)

end Path

end SymbolAtlas

------------------------------------------------------------
-- Names in a Text
------------------------------------------------------------

namespace SymbolAtlas

namespace Path

variable {front last text other : String} {count : Nat}

/- A name of a text, between slashes or an end of the text. -/
structure Stands (text front name back : String) : Prop where
  whole : text = front ++ name ++ back
  slash : '/' ∉ name.toList
  before : front = "" ∨ front.toList.getLast? = some '/'
  behind : back = "" ∨ isRooted back = true

theorem slashes_succ
    (count : Nat) :
    slashes (count + 1) = "/" ++ slashes count := by
  apply String.toList_injective
  simp [List.replicate_succ]

theorem getLast?_slashes
    (front : String)
    (count : Nat) :
    (front ++ slashes (count + 1)).toList.getLast? = some '/' := by
  simp [List.replicate_succ']

/- The name at the end stands behind slashes. -/
theorem stands_last
    (front : String)
    (count : Nat)
    (hSlash : '/' ∉ last.toList) :
    Stands (front ++ slashes (count + 1) ++ last)
      (front ++ slashes (count + 1)) last "" where
  whole := String.append_empty.symm
  slash := hSlash
  before := .inr (getLast?_slashes front count)
  behind := .inl rfl

/- A name of a text stands in it too when more follows. -/
theorem Stands.append
    {before name back : String}
    (hStands : Stands text before name back)
    {more : String}
    (hMore : more = "" ∨ isRooted more = true) :
    Stands (text ++ more) before name (back ++ more) where
  whole := by rw [hStands.whole, String.append_assoc]
  slash := hStands.slash
  before := hStands.before
  behind := by
    rcases hStands.behind with rfl | hBack
    · rw [String.empty_append]
      exact hMore
    · exact .inr (isRooted_append hBack more)

theorem isRooted_slashes
    (count : Nat) :
    isRooted (slashes (count + 1)) = true := by
  rw [slashes_succ]
  exact isRooted_append isRooted_slash _

/- Slashes say nothing, however many they are. -/
theorem names_ofText_slashes
    (front : String)
    (count : Nat)
    (last : String) :
    (Route.ofText (front ++ slashes (count + 1) ++ last)).names =
      (Route.ofText front).names ++ (Route.ofText last).names := by
  have hVoid :
      (Route.ofText (slashes count ++ last)).names =
        (Route.ofText last).names := by
    induction count with
    | zero =>
        have hNone : slashes 0 ++ last = last :=
          String.empty_append
        rw [hNone]
    | succ count ih =>
        rw [slashes_succ, String.append_assoc]
        unfold Route.ofText at ih ⊢
        dsimp only at ih ⊢
        rw [names_slash_append, List.filter_cons_of_neg (by decide)]
        exact ih
  have hWhole :
      front ++ slashes (count + 1) ++ last =
        front ++ "/" ++ (slashes count ++ last) := by
    rw [slashes_succ]
    simp only [String.append_assoc]
  rw [hWhole, names_ofText_append_slash, hVoid]

theorem alike_slashes
    (hSome : front ≠ "")
    (count : Nat) :
    Alike (front ++ slashes (count + 1)) front where
  rooted := isRooted_append_of_ne_empty hSome _
  names := by
    have hNames := names_ofText_slashes front count ""
    rw [String.append_empty] at hNames
    rw [hNames]
    exact List.append_nil _

/- The text leads where the other does and ends in a name. -/
structure Echoes (text other : String) : Prop where
  alike : Alike text other
  nonempty : text ≠ ""
  ending : text.toList.getLast? ≠ some '/'

theorem Spelled.echoes
    (hSpelled : Spelled text) :
    Echoes text text :=
  ⟨.refl text, hSpelled.ne_empty, hSpelled.getLast?_ne⟩

/- One slash leads as far as many do. -/
theorem Echoes.child
    (hEchoes : Echoes other front)
    (hFront : front ≠ "")
    (hSlash : '/' ∉ last.toList)
    (count : Nat) :
    Alike (child other last)
      (front ++ slashes (count + 1) ++ last) where
  rooted := by
    rw [child_of_no_slash hSlash hEchoes.nonempty hEchoes.ending,
      String.append_assoc, String.append_assoc,
      isRooted_append_of_ne_empty hEchoes.nonempty,
      isRooted_append_of_ne_empty hFront, hEchoes.alike.rooted]
  names := by
    rw [names_ofText_child hSlash, names_ofText_slashes,
      hEchoes.alike.names]

end Path

end SymbolAtlas
