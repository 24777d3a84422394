import SymbolAtlas.Proofs.Attempts
import SymbolAtlas.Proofs.Data.Escapes

/-
  Printed data are read back.

  The reader takes what the printer has written apart again and
  comes to the same datum and to the text behind it. It may give
  up on the way, if a number is too long or there is no room for
  a bracket, but it never comes to anything else.

  Key definitions:
    * `Json.Closes`, `Json.ReadBack`
  Key theorems:
    * `Json.Closes.unsigned?_toDigits`
    * `Json.readBack_text`, `Json.readBack_int`
    * `Json.readBack_list`, `Json.readBack_record`
    * `Json.eq_of_parse`
-/

------------------------------------------------------------
-- Numbers
------------------------------------------------------------

namespace SymbolAtlas

namespace Json

theorem natOf_append
    (digits : List Char)
    (last : Char) :
    natOf (digits ++ [last]) =
      10 * natOf digits + (last.toNat - 48) := by
  unfold natOf
  rw [List.foldl_append, List.foldl_cons, List.foldl_nil]

theorem toNat_digitChar :
    ∀ n < 10, n.digitChar.toNat - 48 = n := by
  decide

/- The digits of a number stand for it. -/
theorem natOf_toDigits
    (n : Nat) :
    natOf (Nat.toDigits 10 n) = n := by
  induction n using Nat.strongRecOn with
  | ind n ih =>
      rw [Nat.toDigits_eq_if (by omega)]
      split
      · next hSmall =>
          rw [← List.nil_append [n.digitChar], natOf_append,
            toNat_digitChar n hSmall]
          simp [natOf]
      · next hLarge =>
          rw [natOf_append, ih (n / 10) (by omega),
            toNat_digitChar _ (Nat.mod_lt _ (by omega))]
          omega

/- Only zero begins with a zero. -/
theorem toDigits_ne_zero_cons
    {n : Nat}
    (hPositive : 0 < n)
    (rest : List Char) :
    Nat.toDigits 10 n ≠ '0' :: rest := by
  have hDigit : ∀ m < 10, 0 < m → m.digitChar ≠ '0' := by
    decide
  induction n using Nat.strongRecOn generalizing rest with
  | ind n ih =>
      rw [Nat.toDigits_eq_if (by omega)]
      split
      · next hSmall =>
          intro hDigits
          exact hDigit n hSmall hPositive (List.cons.inj hDigits).1
      · next hLarge =>
          intro hDigits
          cases hFront : Nat.toDigits 10 (n / 10) with
          | nil => exact Nat.toDigits_ne_nil hFront
          | cons first others =>
              rw [hFront, List.cons_append] at hDigits
              rw [(List.cons.inj hDigits).1] at hFront
              exact ih (n / 10) (by omega) (by omega) others hFront

/- The text ends or goes on with the next part of a block. -/
def Closes (rest : List Char) : Prop :=
  ∀ c others, rest = c :: others → c = ',' ∨ c = '\n'

variable {rest : List Char}

theorem Closes.leadingDigits_append
    (hCloses : Closes rest)
    {digits : List Char}
    (hDigits : ∀ c ∈ digits, c.isDigit = true) :
    leadingDigits (digits ++ rest) = (digits, rest) := by
  have hRest :
      rest.takeWhile Char.isDigit = [] ∧
      rest.dropWhile Char.isDigit = rest := by
    cases rest with
    | nil => exact ⟨rfl, rfl⟩
    | cons c others =>
        rcases hCloses c others rfl with rfl | rfl
        · exact ⟨rfl, rfl⟩
        · exact ⟨rfl, rfl⟩
  unfold leadingDigits
  rw [List.takeWhile_append_of_pos hDigits,
    List.dropWhile_append_of_pos hDigits, hRest.1, hRest.2,
    List.append_nil]

/- The digits of a number are read up to its end. -/
theorem Closes.wholeDigits_append
    (hCloses : Closes rest)
    (n : Nat) :
    wholeDigits (Nat.toDigits 10 n ++ rest) =
      (Nat.toDigits 10 n, rest) := by
  have hLeading :
      leadingDigits (Nat.toDigits 10 n ++ rest) =
        (Nat.toDigits 10 n, rest) :=
    hCloses.leadingDigits_append fun c hMem =>
      Nat.isDigit_of_mem_toDigits (by omega) (by omega) hMem
  unfold wholeDigits
  split
  · next others hText =>
      by_cases hZero : n = 0
      · subst hZero
        cases hText
        rfl
      · cases hDigits : Nat.toDigits 10 n with
        | nil => exact absurd hDigits Nat.toDigits_ne_nil
        | cons first digits =>
            rw [hDigits, List.cons_append] at hText
            rw [(List.cons.inj hText).1] at hDigits
            exact absurd hDigits
              (toDigits_ne_zero_cons (by omega) digits)
  · exact hLeading

/- A number has no fraction and no exponent behind it. -/
theorem Closes.fraction_eq
    (hCloses : Closes rest) :
    fraction rest = ([], rest) ∧ exponent? rest = none := by
  cases rest with
  | nil => exact ⟨rfl, rfl⟩
  | cons c others =>
      have hMark : c ≠ '.' ∧ ¬ (c = 'e' ∨ c = 'E') := by
        rcases hCloses c others rfl with rfl | rfl
        · decide
        · decide
      constructor
      · unfold fraction
        split
        · next hText => exact absurd (List.cons.inj hText).1 hMark.1
        · rfl
      · unfold exponent?
        dsimp only
        split
        · next hText =>
            rw [← (List.cons.inj hText).1, if_neg hMark.2]
        · next hText =>
            rw [← (List.cons.inj hText).1, if_neg hMark.2]
        · next hText =>
            rw [← (List.cons.inj hText).1, if_neg hMark.2]
        · rfl

/- A whole number is read, unless it is too long. -/
theorem Closes.unsigned?_toDigits
    (hCloses : Closes rest)
    (negative : Bool)
    (n : Nat) :
    unsigned? negative (Nat.toDigits 10 n ++ rest) =
      if (Nat.toDigits 10 n).length ≤ Datum.digitLimit then
        some (.int (if negative then -(n : Int) else n), rest)
      else none := by
  unfold unsigned?
  rw [hCloses.wholeDigits_append]
  cases hDigits : Nat.toDigits 10 n with
  | nil => exact absurd hDigits Nat.toDigits_ne_nil
  | cons first digits =>
      dsimp only
      rw [hCloses.fraction_eq.1]
      dsimp only
      rw [hCloses.fraction_eq.2, ← hDigits, natOf_toDigits]

theorem ne_of_isDigit
    {c other : Char}
    (hDigit : c.isDigit = true)
    (hOther : other.isDigit = false) :
    c ≠ other := by
  rintro rfl
  rw [hOther] at hDigit
  cases hDigit

/- No number is a word. -/
theorem word?_of_isDigit
    {c : Char}
    (hDigit : c.isDigit = true)
    (text : List Char) :
    word? (c :: text) = none ∧ word? ('-' :: c :: text) = none := by
  have hNe :
      ∀ letter : Char, letter.isDigit = false → letter ≠ c :=
    fun letter hLetter => (ne_of_isDigit hDigit hLetter).symm
  have hLetters :
      'n' ≠ c ∧ 't' ≠ c ∧ 'f' ≠ c ∧ 'N' ≠ c ∧ 'I' ≠ c ∧
        '-' ≠ c :=
    ⟨hNe _ rfl, hNe _ rfl, hNe _ rfl, hNe _ rfl, hNe _ rfl,
      hNe _ rfl⟩
  constructor
  · simp [word?, wordValues, after?, hLetters]
  · simp [word?, wordValues, after?, hLetters]

end Json

end SymbolAtlas

------------------------------------------------------------
-- Values
------------------------------------------------------------

namespace SymbolAtlas

namespace Json

/- A text that no blank and no bracket stands in front of. -/
def Opens (text : List Char) : Prop :=
  ∃ c rest, text = c :: rest ∧ isGap c = false ∧ c ≠ ']'

/-
  Whatever is read where the datum was printed is the datum, up
  to the end of its text.
-/
structure ReadBack (datum : Datum) : Prop where
  opens : ∀ depth, Opens (indentedAt depth datum)
  exact :
    ∀ {depth fuel room : Nat} {rest : List Char}
      {result : Datum × List Char},
      Closes rest →
      readValue fuel room (indentedAt depth datum ++ rest) =
        .ok result →
      result = (datum, rest)

theorem readBack_text
    (s : String) :
    ReadBack (.text s) := by
  refine ⟨?_, ?_⟩
  · intro depth
    exact ⟨'"', _, rfl, by decide, by decide⟩
  · intro depth fuel room rest result hCloses hValue
    cases fuel with
    | zero => cases hValue
    | succ fuel =>
        have hText :
            indentedAt depth (.text s) ++ rest =
              '"' :: (escapes s.toList ++ '"' :: rest) := by
          simp [indentedAt, scalar, quoted]
        rw [hText, readValue, string?_escapes] at hValue
        cases hValue
        dsimp only
        rw [String.ofList_toList]

/- The text of a whole number. -/
theorem scalar_int
    (n : Int) :
    scalar (.int n) =
      if 0 ≤ n then Nat.toDigits 10 n.toNat
      else '-' :: Nat.toDigits 10 (-n).toNat := by
  change (toString n).toList = _
  rw [Int.toString_eq_repr, Int.repr_eq_if,
    Nat.repr_eq_ofList_toDigits, Nat.repr_eq_ofList_toDigits]
  split
  · rw [String.toList_ofList]
  · rw [String.toList_append]
    exact congrArg ('-' :: ·) String.toList_ofList

theorem exists_toDigits
    (n : Nat) :
    ∃ c digits,
      Nat.toDigits 10 n = c :: digits ∧ c.isDigit = true := by
  cases hDigits : Nat.toDigits 10 n with
  | nil => exact absurd hDigits Nat.toDigits_ne_nil
  | cons c digits =>
      refine ⟨c, digits, rfl, ?_⟩
      apply Nat.isDigit_of_mem_toDigits (b := 10) (n := n)
        (by omega) (by omega)
      rw [hDigits]
      exact List.mem_cons_self

theorem isGap_of_isDigit
    {c : Char}
    (hDigit : c.isDigit = true) :
    isGap c = false ∧ c ≠ ']' := by
  have hNe :
      ∀ other : Char, other.isDigit = false → c ≠ other :=
    fun other hOther => ne_of_isDigit hDigit hOther
  simp [isGap, hNe]

/- A number is read behind its sign. -/
theorem readValue_unsigned
    {fuel room : Nat}
    {c : Char}
    (hDigit : c.isDigit = true)
    (text : List Char) :
    readValue (fuel + 1) room (c :: text) =
      orMalformed (unsigned? false (c :: text)) ∧
    readValue (fuel + 1) room ('-' :: c :: text) =
      orMalformed (unsigned? true (c :: text)) := by
  have hNe :
      ∀ other : Char, other.isDigit = false → c ≠ other :=
    fun other hOther => ne_of_isDigit hDigit hOther
  rcases word?_of_isDigit hDigit text with ⟨hWord, hMinus⟩
  constructor
  · unfold readValue
    split
    · next hText => exact absurd (List.cons.inj hText).1 (hNe _ rfl)
    · next hText => exact absurd (List.cons.inj hText).1 (hNe _ rfl)
    · next hText => exact absurd (List.cons.inj hText).1 (hNe _ rfl)
    · next hText => exact absurd (List.cons.inj hText).1 (hNe _ rfl)
    · rw [hWord, Option.none_or]
  · rw [readValue, hMinus, Option.none_or]

theorem readBack_int
    (n : Int) :
    ReadBack (.int n) := by
  have hText (depth : Nat) :
      indentedAt depth (.int n) =
        if 0 ≤ n then Nat.toDigits 10 n.toNat
        else '-' :: Nat.toDigits 10 (-n).toNat := by
    rw [indentedAt, scalar_int]
    all_goals simp
  refine ⟨?_, ?_⟩
  · intro depth
    rw [hText]
    split
    · rcases exists_toDigits n.toNat with
        ⟨c, digits, hDigits, hDigit⟩
      exact ⟨c, digits, hDigits, isGap_of_isDigit hDigit⟩
    · exact ⟨'-', _, rfl, by decide, by decide⟩
  · intro depth fuel room rest result hCloses hValue
    cases fuel with
    | zero => cases hValue
    | succ fuel =>
        rw [hText] at hValue
        split at hValue
        · next hSign =>
            rcases exists_toDigits n.toNat with
              ⟨c, digits, hDigits, hDigit⟩
            have hUnsigned :=
              hCloses.unsigned?_toDigits false n.toNat
            rw [hDigits, List.cons_append] at hValue hUnsigned
            rw [(readValue_unsigned hDigit _).1, hUnsigned] at hValue
            split at hValue
            · cases hValue
              rw [if_neg (by simp), Int.toNat_of_nonneg hSign]
            · cases hValue
        · next hSign =>
            rcases exists_toDigits (-n).toNat with
              ⟨c, digits, hDigits, hDigit⟩
            have hUnsigned :=
              hCloses.unsigned?_toDigits true (-n).toNat
            rw [hDigits, List.cons_append] at hUnsigned
            rw [hDigits, List.cons_append, List.cons_append,
              (readValue_unsigned hDigit _).2, hUnsigned] at hValue
            split at hValue
            · cases hValue
              rw [if_pos rfl, Int.toNat_of_nonneg (by omega),
                Int.neg_neg]
            · cases hValue

end Json

end SymbolAtlas

------------------------------------------------------------
-- Lists and Records
------------------------------------------------------------

namespace SymbolAtlas

namespace Json

variable {rest : List Char}

theorem skip_of_opens
    {text : List Char}
    (hOpens : Opens text) :
    skip text = text := by
  rcases hOpens with ⟨c, others, rfl, hGap, -⟩
  unfold skip
  rw [List.dropWhile_cons, hGap]
  rfl

theorem skip_newLine
    (depth : Nat)
    (text : List Char) :
    skip (newLine depth ++ text) = skip text := by
  unfold newLine skip
  apply List.dropWhile_append_of_pos
  intro c hMem
  rw [List.mem_cons, List.mem_replicate] at hMem
  rcases hMem with rfl | ⟨-, rfl⟩
  · rfl
  · rfl

theorem closes_newLine
    (depth : Nat)
    (text : List Char) :
    Closes (newLine depth ++ text) := by
  intro c others hText
  right
  exact (List.cons.inj hText).1.symm

theorem Opens.append
    {text : List Char}
    (hOpens : Opens text)
    (more : List Char) :
    Opens (text ++ more) := by
  rcases hOpens with ⟨c, others, rfl, hGap, hBracket⟩
  exact ⟨c, others ++ more, rfl, hGap, hBracket⟩

/- A comma and the start of a line. -/
def separator (depth : Nat) : List Char :=
  ',' :: newLine depth

theorem closes_separator
    (depth : Nat)
    (text : List Char) :
    Closes (separator depth ++ text) := by
  intro c others hText
  left
  exact (List.cons.inj hText).1.symm

theorem skip_separator
    (depth : Nat)
    (text : List Char) :
    skip (separator depth ++ text) =
      ',' :: (newLine depth ++ text) :=
  rfl

theorem skip_ending
    {c : Char}
    (hGap : isGap c = false)
    (depth : Nat)
    (text : List Char) :
    skip (newLine depth ++ c :: text) = c :: text := by
  rw [skip_newLine]
  unfold skip
  rw [List.dropWhile_cons, hGap]
  rfl

/- The items of a list, each on a line of its own. -/
def itemsAt (depth : Nat) (items : List Datum) : List Char :=
  (separator depth).intercalate (indentedItems depth items)

theorem itemsAt_singleton
    (depth : Nat)
    (item : Datum) :
    itemsAt depth [item] = indentedAt depth item := by
  simp [itemsAt, indentedItems, List.intercalate]

theorem itemsAt_cons_cons
    (depth : Nat)
    (item next : Datum)
    (items : List Datum)
    (more : List Char) :
    itemsAt depth (item :: next :: items) ++ more =
      indentedAt depth item ++ (separator depth ++
        (itemsAt depth (next :: items) ++ more)) := by
  unfold itemsAt
  rw [indentedItems, indentedItems, List.intercalate_cons_cons,
    ← indentedItems, List.append_assoc, List.append_assoc]

/- The text of a list that is not empty. -/
theorem list_text
    (depth : Nat)
    (item : Datum)
    (items : List Datum)
    (rest : List Char) :
    indentedAt depth (.list (item :: items)) ++ rest =
      '[' :: (newLine (depth + 1) ++
        (itemsAt (depth + 1) (item :: items) ++
          (newLine depth ++ ']' :: rest))) := by
  simp [indentedAt, block, indentedItems, separator, itemsAt]

theorem opens_itemsAt
    (depth : Nat)
    {item : Datum}
    (hItem : ReadBack item)
    (items : List Datum)
    (more : List Char) :
    Opens (itemsAt depth (item :: items) ++ more) := by
  cases items with
  | nil =>
      rw [itemsAt_singleton]
      exact (hItem.opens depth).append _
  | cons next items =>
      rw [itemsAt_cons_cons]
      exact (hItem.opens depth).append _

theorem skip_itemsAt
    (depth : Nat)
    {item : Datum}
    (hItem : ReadBack item)
    (items : List Datum)
    (more : List Char) :
    skip (newLine depth ++
      (itemsAt depth (item :: items) ++ more)) =
        itemsAt depth (item :: items) ++ more := by
  rw [skip_newLine]
  exact skip_of_opens (opens_itemsAt depth hItem items more)

/- The items of a list are read up to the bracket. -/
theorem readItems_of_readBack
    {depth outer : Nat}
    {items : List Datum}
    (hItems : ∀ item ∈ items, ReadBack item)
    (hSome : items ≠ [])
    {fuel room : Nat}
    {result : List Datum × List Char}
    (hRead :
      readItems fuel room
        (itemsAt depth items ++ (newLine outer ++ ']' :: rest)) =
          .ok result) :
    result = (items, rest) := by
  induction items generalizing fuel result with
  | nil => exact absurd rfl hSome
  | cons item items ih =>
      have hItem := hItems item List.mem_cons_self
      cases fuel with
      | zero =>
          unfold readItems at hRead
          cases hRead
      | succ fuel =>
          unfold readItems at hRead
          rcases exists_ok_of_bind hRead with
            ⟨⟨value, after⟩, hValue, hMore⟩
          cases items with
          | nil =>
              rw [itemsAt_singleton] at hValue
              cases hItem.exact (closes_newLine outer _) hValue
              simp only [skip_ending (rfl : isGap ']' = false)]
                at hMore
              cases hMore
              rfl
          | cons next others =>
              have hNext := hItems next (by simp)
              rw [itemsAt_cons_cons] at hValue
              cases hItem.exact (closes_separator depth _) hValue
              simp only [skip_separator,
                skip_itemsAt depth hNext] at hMore
              rcases exists_ok_of_map hMore with
                ⟨found, hFound, rfl⟩
              have hRest :=
                ih (fun item hMem => hItems item
                    (List.mem_cons_of_mem _ hMem))
                  (by simp) hFound
              rw [hRest]

/- What was read between brackets had room for them. -/
theorem exists_room_of_inside
    {α : Type}
    {room : Nat}
    {read : Nat → Except Flaw α}
    {found : α}
    (hFound : inside room read = .ok found) :
    ∃ less, room = less + 1 ∧ read less = .ok found := by
  cases room with
  | zero => cases hFound
  | succ less => exact ⟨less, rfl, hFound⟩

/- A list is read back if its items are. -/
theorem readBack_list
    {items : List Datum}
    (hItems : ∀ item ∈ items, ReadBack item) :
    ReadBack (.list items) := by
  cases items with
  | nil =>
      refine ⟨fun depth => ⟨'[', _, rfl, by decide, by decide⟩, ?_⟩
      intro depth fuel room rest result hCloses hValue
      cases fuel with
      | zero => cases hValue
      | succ fuel =>
          rcases exists_room_of_inside hValue with
            ⟨less, -, hInside⟩
          cases hInside
          rfl
  | cons item items =>
      have hItem := hItems item List.mem_cons_self
      refine ⟨?_, ?_⟩
      · intro depth
        rw [← List.append_nil (indentedAt depth _), list_text]
        exact ⟨'[', _, rfl, by decide, by decide⟩
      · intro depth fuel room rest result hCloses hValue
        cases fuel with
        | zero => cases hValue
        | succ fuel =>
            rw [list_text, readValue, skip_itemsAt _ hItem] at hValue
            rcases exists_room_of_inside hValue with
              ⟨less, -, hInside⟩
            split at hInside
            · next after hBracket =>
                rcases opens_itemsAt (depth + 1) hItem items
                    (newLine depth ++ ']' :: rest) with
                  ⟨c, others, hOpen, -, hNot⟩
                rw [hOpen] at hBracket
                exact absurd (List.cons.inj hBracket).1 hNot
            · rcases exists_ok_of_map hInside with
                ⟨found, hFound, rfl⟩
              rw [readItems_of_readBack hItems (by simp) hFound]

/- The text of one field. -/
def fieldText (depth : Nat) (field : String × Datum) :
    List Char :=
  quoted field.1 ++ ':' :: ' ' :: indentedAt depth field.2

/- The fields of a record, each on a line of its own. -/
def fieldsAt (depth : Nat) (fields : List (String × Datum)) :
    List Char :=
  (separator depth).intercalate (indentedFields depth fields)

theorem fieldsAt_singleton
    (depth : Nat)
    (field : String × Datum) :
    fieldsAt depth [field] = fieldText depth field := by
  simp [fieldsAt, indentedFields, List.intercalate, fieldText]

theorem fieldsAt_cons_cons
    (depth : Nat)
    (field next : String × Datum)
    (fields : List (String × Datum))
    (more : List Char) :
    fieldsAt depth (field :: next :: fields) ++ more =
      fieldText depth field ++ (separator depth ++
        (fieldsAt depth (next :: fields) ++ more)) := by
  unfold fieldsAt
  rw [indentedFields, indentedFields, List.intercalate_cons_cons,
    ← indentedFields, List.append_assoc, List.append_assoc]
  rfl

/- The text of a record that is not empty. -/
theorem record_text
    (depth : Nat)
    (field : String × Datum)
    (fields : List (String × Datum))
    (rest : List Char) :
    indentedAt depth (.record (field :: fields)) ++ rest =
      '{' :: (newLine (depth + 1) ++
        (fieldsAt (depth + 1) (field :: fields) ++
          (newLine depth ++ '}' :: rest))) := by
  simp [indentedAt, block, indentedFields, separator, fieldsAt]

theorem opens_fieldsAt
    (depth : Nat)
    (field : String × Datum)
    (fields : List (String × Datum))
    (more : List Char) :
    ∃ others,
      fieldsAt depth (field :: fields) ++ more = '"' :: others := by
  cases fields with
  | nil =>
      rw [fieldsAt_singleton]
      exact ⟨_, rfl⟩
  | cons next fields =>
      rw [fieldsAt_cons_cons]
      exact ⟨_, rfl⟩

theorem skip_fieldsAt
    (depth : Nat)
    (field : String × Datum)
    (fields : List (String × Datum))
    (more : List Char) :
    skip (newLine depth ++
      (fieldsAt depth (field :: fields) ++ more)) =
        fieldsAt depth (field :: fields) ++ more := by
  rcases opens_fieldsAt depth field fields more with
    ⟨others, hOpen⟩
  rw [hOpen]
  exact skip_ending rfl depth others

/- A field is read up to what follows its value. -/
theorem readFields_of_field
    {depth fuel room : Nat}
    {field : String × Datum}
    {more : List Char}
    {result : List (String × Datum) × List Char}
    (hField : ReadBack field.2)
    (hCloses : Closes more)
    (hRead :
      readFields (fuel + 1) room (fieldText depth field ++ more) =
        .ok result) :
    (match skip more with
      | '}' :: last => Except.ok ([field], last)
      | ',' :: others =>
          (readFields fuel room (skip others)).map
            fun (fs, r) => (field :: fs, r)
      | _ => .error .malformed) = .ok result := by
  obtain ⟨key, value⟩ := field
  have hValue : ReadBack value := hField
  have hText :
      fieldText depth (key, value) ++ more =
        '"' :: (escapes key.toList ++ '"' :: ':' :: ' ' ::
          (indentedAt depth value ++ more)) := by
    simp [fieldText, quoted]
  have hColon :
      skip (':' :: ' ' :: (indentedAt depth value ++ more)) =
        ':' :: ' ' :: (indentedAt depth value ++ more) :=
    rfl
  have hBlank :
      skip (' ' :: (indentedAt depth value ++ more)) =
        indentedAt depth value ++ more :=
    skip_of_opens ((hValue.opens depth).append more)
  rw [hText, readFields, string?_escapes] at hRead
  rcases exists_ok_of_bind hRead with ⟨start, hKey, hColons⟩
  cases hKey
  simp only [hColon, hBlank] at hColons
  rcases exists_ok_of_bind hColons with ⟨found, hFound, hMore⟩
  rw [hValue.exact hCloses hFound, String.ofList_toList] at hMore
  exact hMore

/- The fields of a record are read up to the brace. -/
theorem readFields_of_readBack
    {depth outer : Nat}
    {fields : List (String × Datum)}
    (hFields : ∀ field ∈ fields, ReadBack field.2)
    (hSome : fields ≠ [])
    {fuel room : Nat}
    {result : List (String × Datum) × List Char}
    (hRead :
      readFields fuel room
        (fieldsAt depth fields ++ (newLine outer ++ '}' :: rest)) =
          .ok result) :
    result = (fields, rest) := by
  induction fields generalizing fuel result with
  | nil => exact absurd rfl hSome
  | cons field fields ih =>
      have hField := hFields field List.mem_cons_self
      cases fuel with
      | zero =>
          unfold readFields at hRead
          cases hRead
      | succ fuel =>
          cases fields with
          | nil =>
              rw [fieldsAt_singleton] at hRead
              have hLast :=
                readFields_of_field hField
                  (closes_newLine outer _) hRead
              rw [skip_newLine] at hLast
              cases hLast
              rfl
          | cons next others =>
              rw [fieldsAt_cons_cons] at hRead
              have hMore :=
                readFields_of_field hField
                  (closes_separator depth _) hRead
              simp only [skip_separator, skip_fieldsAt] at hMore
              rcases exists_ok_of_map hMore with
                ⟨found, hFound, rfl⟩
              have hRest :=
                ih (fun field hMem => hFields field
                    (List.mem_cons_of_mem _ hMem))
                  (by simp) hFound
              rw [hRest]

/- A record is read back if its keys stand once. -/
theorem readBack_record
    {fields : List (String × Datum)}
    (hNodup : (fields.map Prod.fst).Nodup)
    (hFields : ∀ field ∈ fields, ReadBack field.2) :
    ReadBack (.record fields) := by
  cases fields with
  | nil =>
      refine ⟨fun depth => ⟨'{', _, rfl, by decide, by decide⟩, ?_⟩
      intro depth fuel room rest result hCloses hValue
      cases fuel with
      | zero => cases hValue
      | succ fuel =>
          rcases exists_room_of_inside hValue with
            ⟨less, -, hInside⟩
          cases hInside
          rfl
  | cons field fields =>
      refine ⟨?_, ?_⟩
      · intro depth
        rw [← List.append_nil (indentedAt depth _), record_text]
        exact ⟨'{', _, rfl, by decide, by decide⟩
      · intro depth fuel room rest result hCloses hValue
        cases fuel with
        | zero => cases hValue
        | succ fuel =>
            rw [record_text, readValue, skip_fieldsAt] at hValue
            rcases exists_room_of_inside hValue with
              ⟨less, -, hInside⟩
            split at hInside
            · next after hBrace =>
                rcases opens_fieldsAt (depth + 1) field fields
                    (newLine depth ++ '}' :: rest) with
                  ⟨others, hOpen⟩
                rw [hOpen] at hBrace
                exact absurd (List.cons.inj hBrace).1 (by decide)
            · rcases exists_ok_of_map hInside with
                ⟨found, hFound, rfl⟩
              rw [readFields_of_readBack hFields (by simp) hFound]
              dsimp only
              rw [Keyed.entries_ofList hNodup]

/- Whatever is read from a printed text is the datum. -/
theorem eq_of_parse
    {room : Nat}
    {datum value : Datum}
    (hReadBack : ReadBack datum)
    (hParse : parse room (indented datum ++ "\n") = .ok value) :
    value = datum := by
  have hText :
      (indented datum ++ "\n").toList =
        indentedAt 0 datum ++ ['\n'] := by
    rw [indented, String.toList_append, String.toList_ofList]
    rfl
  have hCloses : Closes ['\n'] := by
    intro c others hMark
    exact Or.inr (List.cons.inj hMark).1.symm
  unfold parse at hParse
  dsimp only at hParse
  rw [hText, skip_of_opens ((hReadBack.opens 0).append _)] at hParse
  rcases exists_ok_of_bind hParse with ⟨found, hValue, hEnd⟩
  cases hReadBack.exact hCloses hValue
  cases hEnd
  rfl

end Json

end SymbolAtlas
