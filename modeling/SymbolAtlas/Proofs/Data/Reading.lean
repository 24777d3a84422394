import SymbolAtlas.Proofs.Data.Printing

/-
  Printed data can be read.

  The reader takes one more step with every value and every part
  of a block. A printed text is longer than that, so its length
  is more than enough fuel. A number that is too long stops the
  reader, and so does a bracket that there is no room for: it
  takes as many levels of room as there are levels of parts.

  Key definitions:
    * `Json.Readable`
  Key theorems:
    * `Json.readable_text`, `Json.readable_int`
    * `Json.readable_list`, `Json.readable_record`
    * `Json.Readable.parse_eq`
    * `Json.parse_brackets`
-/

------------------------------------------------------------
-- Scalars
------------------------------------------------------------

namespace SymbolAtlas

namespace Json

/-
  What was printed of the datum is read as the datum whenever
  there is more fuel than text, and room for so many levels.
-/
structure Readable (levels : Nat) (datum : Datum) : Prop extends
    ReadBack datum where
  found :
    ∀ {depth fuel room : Nat} {rest : List Char},
      Closes rest →
      (indentedAt depth datum).length < fuel →
      levels ≤ room →
      readValue fuel room (indentedAt depth datum ++ rest) =
        .ok (datum, rest)

variable {levels : Nat}

theorem readable_text
    (s : String) :
    Readable levels (.text s) := by
  refine ⟨readBack_text s, ?_⟩
  intro depth fuel room rest hCloses hFuel hRoom
  obtain ⟨deeper, hDeeper⟩ :=
    Nat.exists_eq_succ_of_ne_zero (Nat.ne_zero_of_lt hFuel)
  have hText :
      indentedAt depth (.text s) ++ rest =
        '"' :: (escapes s.toList ++ '"' :: rest) := by
    simp [indentedAt, scalar, quoted]
  rw [hText, hDeeper, readValue, string?_escapes]
  change Except.ok (Datum.text (String.ofList s.toList), rest) = _
  rw [String.ofList_toList]

/- A number that is short enough is read. -/
theorem readable_int
    {n : Int}
    (hShort : Datum.isShort n = true) :
    Readable levels (.int n) := by
  have hLength :
      (Nat.toDigits 10 n.natAbs).length ≤ Datum.digitLimit :=
    of_decide_eq_true hShort
  refine ⟨readBack_int n, ?_⟩
  intro depth fuel room rest hCloses hFuel hRoom
  obtain ⟨deeper, hDeeper⟩ :=
    Nat.exists_eq_succ_of_ne_zero (Nat.ne_zero_of_lt hFuel)
  have hText : indentedAt depth (.int n) = scalar (.int n) := by
    simp [indentedAt]
  rcases exists_toDigits n.natAbs with
    ⟨c, digits, hDigits, hDigit⟩
  have hStep (text : List Char) :
      readValue (deeper + 1) room (c :: text) =
        orMalformed (unsigned? false (c :: text)) ∧
      readValue (deeper + 1) room ('-' :: c :: text) =
        orMalformed (unsigned? true (c :: text)) :=
    readValue_unsigned hDigit text
  rw [hText, hDeeper, scalar_int]
  split
  · next hSign =>
      have hSize : n.toNat = n.natAbs := by omega
      have hUnsigned := hCloses.unsigned?_toDigits false n.natAbs
      have hValue : ((n.natAbs : Nat) : Int) = n := by omega
      rw [hDigits, List.cons_append, ← hDigits, if_pos hLength,
        if_neg Bool.false_ne_true, hValue] at hUnsigned
      rw [hSize, hDigits, List.cons_append, (hStep _).1, hUnsigned]
      rfl
  · next hSign =>
      have hSize : (-n).toNat = n.natAbs := by omega
      have hUnsigned := hCloses.unsigned?_toDigits true n.natAbs
      have hValue : -((n.natAbs : Nat) : Int) = n := by omega
      rw [hDigits, List.cons_append, ← hDigits, if_pos hLength,
        if_pos rfl, hValue] at hUnsigned
      rw [hSize, hDigits, List.cons_append, List.cons_append,
        (hStep _).2, hUnsigned]
      rfl

end Json

end SymbolAtlas

------------------------------------------------------------
-- Lists
------------------------------------------------------------

namespace SymbolAtlas

namespace Json

variable {rest : List Char}

theorem two_le_length_separator
    (depth : Nat) :
    2 ≤ (separator depth).length := by
  unfold separator newLine
  rw [List.length_cons, List.length_cons]
  omega

/- All the items of a list are read. -/
theorem readItems_of_readable
    {depth outer : Nat}
    {items : List Datum}
    (hItems : ∀ item ∈ items, Readable levels item)
    (hSome : items ≠ [])
    {fuel room : Nat}
    (hFuel : (itemsAt depth items).length + 1 < fuel)
    (hRoom : levels ≤ room) :
    readItems fuel room
        (itemsAt depth items ++ (newLine outer ++ ']' :: rest)) =
      .ok (items, rest) := by
  induction items generalizing fuel with
  | nil => exact absurd rfl hSome
  | cons item items ih =>
      have hItem := hItems item List.mem_cons_self
      obtain ⟨deeper, rfl⟩ :=
        Nat.exists_eq_succ_of_ne_zero (Nat.ne_zero_of_lt hFuel)
      cases items with
      | nil =>
          rw [itemsAt_singleton] at hFuel ⊢
          rw [readItems,
            hItem.found (closes_newLine outer _) (by omega) hRoom]
          simp only [Except.bind,
            skip_ending (rfl : isGap ']' = false)]
      | cons next others =>
          have hNext := (hItems next (by simp)).toReadBack
          have hSeparator := two_le_length_separator depth
          have hLength :=
            congrArg List.length
              (itemsAt_cons_cons depth item next others [])
          simp only [List.length_append, List.length_nil]
            at hLength
          have hMore :
              readItems deeper room
                  (itemsAt depth (next :: others) ++
                    (newLine outer ++ ']' :: rest)) =
                .ok (next :: others, rest) := by
            apply ih
            · intro other hOther
              exact hItems other (List.mem_cons_of_mem _ hOther)
            · exact List.cons_ne_nil _ _
            · omega
          rw [itemsAt_cons_cons, readItems,
            hItem.found (closes_separator depth _) (by omega)
              hRoom]
          simp only [Except.bind, skip_separator,
            skip_itemsAt depth hNext, hMore, Except.map]

/- A list can be read if its items can, with one level more. -/
theorem readable_list
    {items : List Datum}
    (hItems : ∀ item ∈ items, Readable levels item) :
    Readable (levels + 1) (.list items) := by
  have hBack : ∀ item ∈ items, ReadBack item :=
    fun item hItem => (hItems item hItem).toReadBack
  refine ⟨readBack_list hBack, ?_⟩
  intro depth fuel room rest hCloses hFuel hRoom
  obtain ⟨deeper, rfl⟩ :=
    Nat.exists_eq_succ_of_ne_zero (Nat.ne_zero_of_lt hFuel)
  obtain ⟨less, rfl⟩ :=
    Nat.exists_eq_succ_of_ne_zero (Nat.ne_zero_of_lt hRoom)
  cases items with
  | nil => rfl
  | cons item items =>
      have hItem := hBack item List.mem_cons_self
      have hLength :=
        congrArg List.length (list_text depth item items [])
      simp only [List.length_append, List.length_cons,
        List.length_nil] at hLength
      have hRead :
          readItems deeper less
              (itemsAt (depth + 1) (item :: items) ++
                (newLine depth ++ ']' :: rest)) =
            .ok (item :: items, rest) := by
        apply readItems_of_readable hItems (List.cons_ne_nil _ _)
        · omega
        · omega
      rw [list_text, readValue, skip_itemsAt _ hItem, inside]
      split
      · next after hBracket =>
          rcases opens_itemsAt (depth + 1) hItem items
              (newLine depth ++ ']' :: rest) with
            ⟨c, others, hOpen, -, hNot⟩
          rw [hOpen] at hBracket
          exact absurd (List.cons.inj hBracket).1 hNot
      · rw [hRead]
        rfl

end Json

end SymbolAtlas

------------------------------------------------------------
-- Records
------------------------------------------------------------

namespace SymbolAtlas

namespace Json

variable {rest : List Char}

/- A field is read, and then what follows its value. -/
theorem readFields_of_readable_field
    {depth fuel room : Nat}
    {field : String × Datum}
    {more : List Char}
    (hField : Readable levels field.2)
    (hCloses : Closes more)
    (hFuel : (fieldText depth field).length < fuel)
    (hRoom : levels ≤ room) :
    readFields (fuel + 1) room (fieldText depth field ++ more) =
      match skip more with
      | '}' :: last => .ok ([field], last)
      | ',' :: others =>
          (readFields fuel room (skip others)).map
            fun (fs, r) => (field :: fs, r)
      | _ => .error .malformed := by
  obtain ⟨name, value⟩ := field
  obtain ⟨key, rfl⟩ : ∃ key, name = String.ofList key :=
    ⟨name.toList, String.ofList_toList.symm⟩
  have hReadable : Readable levels value := hField
  have hText :
      fieldText depth (String.ofList key, value) ++ more =
        '"' :: (escapes key ++ '"' :: ':' :: ' ' ::
          (indentedAt depth value ++ more)) := by
    simp [fieldText, quoted]
  have hBlank :
      skip (' ' :: (indentedAt depth value ++ more)) =
        indentedAt depth value ++ more :=
    skip_of_opens ((hReadable.opens depth).append more)
  have hValue :
      readValue fuel room (indentedAt depth value ++ more) =
        .ok (value, more) := by
    refine hReadable.found hCloses ?_ hRoom
    simp only [fieldText, List.length_append,
      List.length_cons] at hFuel
    omega
  rw [hText, readFields, string?_escapes]
  -- The colon is found where it stands, without any blank.
  change
    (readValue fuel room
      (skip (' ' :: (indentedAt depth value ++ more)))).bind _ =
        _
  rw [hBlank, hValue]
  rfl

/- All the fields of a record are read. -/
theorem readFields_of_readable
    {depth outer : Nat}
    {fields : List (String × Datum)}
    (hFields : ∀ field ∈ fields, Readable levels field.2)
    (hSome : fields ≠ [])
    {fuel room : Nat}
    (hFuel : (fieldsAt depth fields).length + 1 < fuel)
    (hRoom : levels ≤ room) :
    readFields fuel room
        (fieldsAt depth fields ++ (newLine outer ++ '}' :: rest)) =
      .ok (fields, rest) := by
  induction fields generalizing fuel with
  | nil => exact absurd rfl hSome
  | cons field fields ih =>
      have hField := hFields field List.mem_cons_self
      obtain ⟨deeper, rfl⟩ :=
        Nat.exists_eq_succ_of_ne_zero (Nat.ne_zero_of_lt hFuel)
      cases fields with
      | nil =>
          rw [fieldsAt_singleton] at hFuel ⊢
          rw [readFields_of_readable_field hField
            (closes_newLine outer _) (by omega) hRoom]
          simp only [skip_ending (rfl : isGap '}' = false)]
      | cons next others =>
          have hSeparator := two_le_length_separator depth
          have hLength :=
            congrArg List.length
              (fieldsAt_cons_cons depth field next others [])
          simp only [List.length_append, List.length_nil]
            at hLength
          have hMore :
              readFields deeper room
                  (fieldsAt depth (next :: others) ++
                    (newLine outer ++ '}' :: rest)) =
                .ok (next :: others, rest) := by
            apply ih
            · intro other hOther
              exact hFields other (List.mem_cons_of_mem _ hOther)
            · exact List.cons_ne_nil _ _
            · omega
          rw [fieldsAt_cons_cons,
            readFields_of_readable_field hField
              (closes_separator depth _) (by omega) hRoom]
          simp only [skip_separator, skip_fieldsAt, hMore,
            Except.map]

/- A record can be read if its keys stand once. -/
theorem readable_record
    {fields : List (String × Datum)}
    (hNodup : (fields.map Prod.fst).Nodup)
    (hFields : ∀ field ∈ fields, Readable levels field.2) :
    Readable (levels + 1) (.record fields) := by
  have hBack : ∀ field ∈ fields, ReadBack field.2 :=
    fun field hField => (hFields field hField).toReadBack
  refine ⟨readBack_record hNodup hBack, ?_⟩
  intro depth fuel room rest hCloses hFuel hRoom
  obtain ⟨deeper, rfl⟩ :=
    Nat.exists_eq_succ_of_ne_zero (Nat.ne_zero_of_lt hFuel)
  obtain ⟨less, rfl⟩ :=
    Nat.exists_eq_succ_of_ne_zero (Nat.ne_zero_of_lt hRoom)
  cases fields with
  | nil => rfl
  | cons field fields =>
      have hLength :=
        congrArg List.length (record_text depth field fields [])
      simp only [List.length_append, List.length_cons,
        List.length_nil] at hLength
      have hRead :
          readFields deeper less
              (fieldsAt (depth + 1) (field :: fields) ++
                (newLine depth ++ '}' :: rest)) =
            .ok (field :: fields, rest) := by
        apply readFields_of_readable hFields (List.cons_ne_nil _ _)
        · omega
        · omega
      rw [record_text, readValue, skip_fieldsAt, inside]
      split
      · next after hBrace =>
          rcases opens_fieldsAt (depth + 1) field fields
              (newLine depth ++ '}' :: rest) with
            ⟨others, hOpen⟩
          rw [hOpen] at hBrace
          exact absurd (List.cons.inj hBrace).1 (by decide)
      · rw [hRead]
        simp only [Except.map]
        rw [Keyed.entries_ofList hNodup]

end Json

end SymbolAtlas

------------------------------------------------------------
-- Whole Texts
------------------------------------------------------------

namespace SymbolAtlas

namespace Json

/- What was printed is read as the datum. -/
theorem Readable.parse_eq
    {levels room : Nat}
    {datum : Datum}
    (hReadable : Readable levels datum)
    (hRoom : levels ≤ room) :
    parse room (indented datum ++ "\n") = .ok datum := by
  have hText :
      (indented datum ++ "\n").toList =
        indentedAt 0 datum ++ ['\n'] := by
    rw [indented, String.toList_append, String.toList_ofList]
    rfl
  have hCloses : Closes ['\n'] := closes_newLine 0 []
  have hValue :
      readValue (2 * (indentedAt 0 datum ++ ['\n']).length + 1)
          room (indentedAt 0 datum ++ ['\n']) =
        .ok (datum, ['\n']) := by
    refine hReadable.found hCloses ?_ hRoom
    rw [List.length_append]
    omega
  unfold parse
  dsimp only
  rw [hText, skip_of_opens ((hReadable.opens 0).append _), hValue]
  rfl

/- More brackets than there is room for are too deep. -/
theorem readValue_brackets
    {fuel room count : Nat}
    (hFuel : 2 * room + 1 ≤ fuel)
    (hCount : room < count)
    (text : List Char) :
    readValue fuel room (List.replicate count '[' ++ text) =
      .error .tooDeep := by
  induction room generalizing fuel count with
  | zero =>
      obtain ⟨less, rfl⟩ :=
        Nat.exists_eq_succ_of_ne_zero (Nat.ne_zero_of_lt hFuel)
      obtain ⟨more, rfl⟩ :=
        Nat.exists_eq_succ_of_ne_zero (Nat.ne_zero_of_lt hCount)
      rfl
  | succ room ih =>
      obtain ⟨less, rfl⟩ : ∃ less, fuel = less + 2 :=
        ⟨fuel - 2, by omega⟩
      obtain ⟨more, rfl⟩ : ∃ more, count = more + 2 :=
        ⟨count - 2, by omega⟩
      have hInner :
          readItems (less + 1) room
              (List.replicate (more + 1) '[' ++ text) =
            .error .tooDeep := by
        rw [readItems, ih (by omega) (by omega)]
        rfl
      change (readItems (less + 1) room
        (List.replicate (more + 1) '[' ++ text)).map _ = _
      rw [hInner]
      rfl

/- A text that begins with so many brackets is never read. -/
theorem parse_brackets
    {room count : Nat}
    (hCount : room < count)
    (rest : String) :
    parse room (String.ofList (List.replicate count '[') ++ rest) =
      .error .tooDeep := by
  have hText :
      (String.ofList (List.replicate count '[') ++ rest).toList =
        List.replicate count '[' ++ rest.toList := by
    rw [String.toList_append, String.toList_ofList]
  have hOpens : Opens (List.replicate count '[' ++ rest.toList) := by
    obtain ⟨less, rfl⟩ :=
      Nat.exists_eq_succ_of_ne_zero (Nat.ne_zero_of_lt hCount)
    exact ⟨'[', _, rfl, by decide, by decide⟩
  have hFuel :
      2 * room + 1 ≤
        2 * (List.replicate count '[' ++ rest.toList).length + 1 := by
    rw [List.length_append, List.length_replicate]
    omega
  unfold parse
  dsimp only
  rw [hText, skip_of_opens hOpens, readValue_brackets hFuel hCount]
  rfl

end Json

end SymbolAtlas
