import SymbolAtlas.Data.Json

/-
  Printed strings are read back.

  A character is printed as itself, as an escape of one letter,
  or as one or two units of sixteen bits. The reader joins a high
  half with the low one behind it, so the characters of a text
  are found again. A string that holds halves is printed unit by
  unit as well. Two of them that belong together are printed like
  the character that they are halves of, and this is all that two
  strings with one printed form can differ in.

  Key definitions:
    * `Letter.escape`, `Letter.escapes`
    * `Letter.spelled`
  Key theorems:
    * `Json.letters?_escapes`, `Letter.merged_spelled`
    * `Json.string?_letters`, `Json.string?_escapes`
    * `Letter.escapes_append_inj`
    * `Letter.escapes_halves`
-/

------------------------------------------------------------
-- Halves
------------------------------------------------------------

namespace SymbolAtlas

namespace Half

/- No character stands among the halves. -/
theorem toNat_valid
    (c : Char) :
    c.toNat < 0xD800 ∨
      0xDFFF < c.toNat ∧ c.toNat < 0x110000 := by
  have hValid := c.valid
  simp only [UInt32.isValidChar, Nat.isValidChar] at hValid
  exact hValid

theorem toNat_ofNat
    {n : Nat}
    (hValid : n.isValidChar) :
    (Char.ofNat n).toNat = n := by
  unfold Char.ofNat
  rw [dif_pos hValid]
  rfl

theorem isHigh_iff
    {h : Half} :
    h.isHigh = true ↔ h.unit < 0xDC00 := by
  simp [isHigh]

/- The two halves of a character beyond the basic plane. -/
def highOf (c : Char) (hFar : 0x10000 ≤ c.toNat) : Half where
  unit := highUnit c
  isHalf := by
    have hValid := toNat_valid c
    unfold highUnit
    omega

def lowOf (c : Char) : Half where
  unit := lowUnit c
  isHalf := by
    unfold lowUnit
    omega

theorem isHigh_highOf
    {c : Char}
    (hFar : 0x10000 ≤ c.toNat) :
    (highOf c hFar).isHigh = true := by
  have hValid := toNat_valid c
  rw [isHigh_iff]
  change highUnit c < 0xDC00
  unfold highUnit
  omega

theorem isHigh_lowOf
    (c : Char) :
    (lowOf c).isHigh = false := by
  rw [← Bool.not_eq_true, isHigh_iff]
  change ¬ lowUnit c < 0xDC00
  unfold lowUnit
  omega

theorem joined_highOf_lowOf
    {c : Char}
    (hFar : 0x10000 ≤ c.toNat) :
    joined (highOf c hFar) (lowOf c) = c := by
  have hSum :
      0x10000 + (highUnit c - 0xD800) * 0x400 +
          (lowUnit c - 0xDC00) =
        c.toNat := by
    simp only [highUnit, lowUnit]
    omega
  change Char.ofNat
    (0x10000 + (highUnit c - 0xD800) * 0x400 +
      (lowUnit c - 0xDC00)) = c
  rw [hSum, Char.ofNat_toNat]

/- Two halves that belong together are those of a character. -/
theorem units_joined
    {high low : Half}
    (hHigh : high.isHigh = true)
    (hLow : low.isHigh = false) :
    0x10000 ≤ (joined high low).toNat ∧
      highUnit (joined high low) = high.unit ∧
      lowUnit (joined high low) = low.unit := by
  have hHighRange := high.isHalf
  have hLowRange := low.isHalf
  rw [isHigh_iff] at hHigh
  rw [← Bool.not_eq_true, isHigh_iff] at hLow
  have hNat :
      (joined high low).toNat =
        0x10000 + (high.unit - 0xD800) * 0x400 +
          (low.unit - 0xDC00) := by
    unfold joined
    apply toNat_ofNat
    right
    omega
  unfold highUnit lowUnit
  omega

end Half

end SymbolAtlas

------------------------------------------------------------
-- Letters
------------------------------------------------------------

namespace SymbolAtlas

namespace Letter

/- The letter as it is printed in a string. -/
def escape : Letter → List Char
| .char c => Json.escape c
| .half h => Json.unitEscape h.unit

/- The letters of a string, as they are printed. -/
def escapes (letters : List Letter) : List Char :=
  letters.flatMap escape

/- The letters that are read where a character was printed. -/
def spelledChar (c : Char) : List Letter :=
  if hFar : 0x10000 ≤ c.toNat then
    [.half (Half.highOf c hFar), .half (Half.lowOf c)]
  else [.char c]

def spelled : Letter → List Letter
| .char c => spelledChar c
| .half h => [.half h]

theorem ofUnit_unit
    (h : Half) :
    ofUnit h.unit = .half h := by
  unfold ofUnit
  rw [dif_pos h.isHalf]

/- A unit that is no half is a character of the basic plane. -/
theorem ofUnit_toNat
    (c : Char) :
    ofUnit c.toNat = .char c := by
  have hValid := Half.toNat_valid c
  unfold ofUnit
  rw [dif_neg (by omega), Char.ofNat_toNat]

theorem merged_char
    (c : Char)
    (rest : List Letter) :
    merged (.char c :: rest) = .char c :: merged rest := by
  simp [merged]

/- A half is joined with a low one behind it, if it is high. -/
theorem merged_half
    (h : Half)
    (rest : List Letter)
    (hAlone :
      ∀ low others,
        rest = .half low :: others →
        (h.isHigh && !low.isHigh) = false) :
    merged (.half h :: rest) = .half h :: merged rest := by
  cases rest with
  | nil => rfl
  | cons next rest =>
      cases next with
      | char c => rfl
      | half low =>
          rw [merged, if_neg]
          rw [hAlone low rest rfl]
          exact Bool.false_ne_true

theorem merged_pair
    {high low : Half}
    (hPair : (high.isHigh && !low.isHigh) = true)
    (rest : List Letter) :
    merged (.half high :: .half low :: rest) =
      .char (Half.joined high low) :: merged rest := by
  rw [merged, if_pos hPair]

/- A text holds no halves, so there is nothing to join. -/
theorem merged_map_char
    (chars : List Char) :
    merged (chars.map .char) = chars.map .char := by
  induction chars with
  | nil => rfl
  | cons c rest ih => rw [List.map_cons, merged_char, ih]

/- Two halves that belong together spell one character. -/
theorem merged_spelledChar
    (c : Char)
    (rest : List Letter) :
    merged (spelledChar c ++ rest) = .char c :: merged rest := by
  unfold spelledChar
  split
  · next hFar =>
      change merged (.half _ :: .half _ :: rest) = _
      rw [merged_pair, Half.joined_highOf_lowOf hFar]
      rw [Half.isHigh_highOf hFar, Half.isHigh_lowOf]
      rfl
  · exact merged_char c rest

/- What a string is spelled as begins with the same low half. -/
theorem low_of_spelled
    {letters others : List Letter}
    {low : Half}
    (hSpelled : letters.flatMap spelled = .half low :: others)
    (hLow : low.isHigh = false) :
    ∃ rest, letters = .half low :: rest := by
  cases letters with
  | nil => cases hSpelled
  | cons letter rest =>
      rw [List.flatMap_cons] at hSpelled
      cases letter with
      | half h =>
          cases hSpelled
          exact ⟨rest, rfl⟩
      | char c =>
          change spelledChar c ++ _ = _ at hSpelled
          unfold spelledChar at hSpelled
          split at hSpelled
          · next hFar =>
              cases hSpelled
              rw [Half.isHigh_highOf hFar] at hLow
              cases hLow
          · cases hSpelled

/-
  Spelling a string out changes nothing once halves that belong
  together are joined.
-/
theorem merged_spelled
    (letters : List Letter) :
    merged (letters.flatMap spelled) = merged letters := by
  fun_induction merged letters with
  | case1 => rfl
  | case2 high low rest hPair ih =>
      change merged (.half high :: .half low ::
        rest.flatMap spelled) = _
      rw [merged_pair hPair, ih]
  | case3 high low rest hApart ih =>
      change merged (.half high ::
        (Letter.half low :: rest).flatMap spelled) = _
      rw [merged_half, ih]
      intro other others hFirst
      cases hFirst
      simpa using hApart
  | case4 letter rest hNot ih =>
      rw [List.flatMap_cons]
      cases letter with
      | char c =>
          change merged (spelledChar c ++ _) = _
          rw [merged_spelledChar, ih]
      | half h =>
          change merged (.half h :: rest.flatMap spelled) = _
          rw [merged_half, ih]
          intro low others hFirst
          cases hLow : low.isHigh with
          | true => simp
          | false =>
              rcases low_of_spelled hFirst hLow with ⟨more, hMore⟩
              exact absurd hMore (hNot h low more rfl)

end Letter

end SymbolAtlas

------------------------------------------------------------
-- Characters
------------------------------------------------------------

namespace SymbolAtlas

namespace Json

theorem hexValue?_hexDigit :
    ∀ n < 16, hexValue? (Quoted.hexDigit n) = some n := by
  decide

theorem hex4?_hex
    {n : Nat}
    (hSize : n < 0x10000) :
    hex4? (Quoted.hexDigit (n / 16 / 16 / 16 % 16))
      (Quoted.hexDigit (n / 16 / 16 % 16))
      (Quoted.hexDigit (n / 16 % 16))
      (Quoted.hexDigit (n % 16)) = some n := by
  have hDigit (m : Nat) :
      hexValue? (Quoted.hexDigit (m % 16)) = some (m % 16) :=
    hexValue?_hexDigit _ (Nat.mod_lt _ (by omega))
  unfold hex4?
  simp only [hDigit, Option.bind_eq_bind, Option.bind_some,
    Option.pure_def, Option.some.injEq]
  omega

/- Letters that are read in front of others. -/
def consLetters
    (front : List Letter)
    (result : Option (List Letter × List Char)) :
    Option (List Letter × List Char) :=
  result.map fun found => (front ++ found.1, found.2)

theorem consLetters_append
    (front next : List Letter)
    (result : Option (List Letter × List Char)) :
    consLetters (front ++ next) result =
      consLetters front (consLetters next result) := by
  cases result with
  | none => rfl
  | some found => simp [consLetters]

theorem letters?_unitEscape
    {n : Nat}
    (hSize : n < 0x10000)
    (text : List Char) :
    letters? (unitEscape n ++ text) =
      consLetters [.ofUnit n] (letters? text) := by
  have hUnit :
      letters? (unitEscape n ++ text) =
        (hex4? (Quoted.hexDigit (n / 16 / 16 / 16 % 16))
          (Quoted.hexDigit (n / 16 / 16 % 16))
          (Quoted.hexDigit (n / 16 % 16))
          (Quoted.hexDigit (n % 16))).bind fun unit =>
            consLetters [.ofUnit unit] (letters? text) :=
    rfl
  rw [hUnit, hex4?_hex hSize]
  rfl

theorem letters?_halfEscape
    (h : Half)
    (text : List Char) :
    letters? (unitEscape h.unit ++ text) =
      consLetters [.half h] (letters? text) := by
  rw [letters?_unitEscape, Letter.ofUnit_unit]
  have hRange := h.isHalf
  omega

theorem letters?_unitEscapes
    (c : Char)
    (text : List Char) :
    letters? (unitEscapes c ++ text) =
      consLetters (Letter.spelledChar c) (letters? text) := by
  unfold unitEscapes Letter.spelledChar
  split
  · next hNear =>
      rw [dif_neg (by omega), letters?_unitEscape hNear,
        Letter.ofUnit_toNat]
  · next hNot =>
      have hFar : 0x10000 ≤ c.toNat := Nat.le_of_not_lt hNot
      rw [dif_pos hFar, List.append_assoc]
      have hHigh := letters?_halfEscape (Half.highOf c hFar)
      have hLow := letters?_halfEscape (Half.lowOf c)
      simp only [Half.highOf, Half.lowOf] at hHigh hLow ⊢
      rw [hHigh, hLow, ← consLetters_append]
      rfl

/- A printable character that is no quote and no backslash. -/
theorem letters?_char
    {c : Char}
    (hQuote : c ≠ '"')
    (hSlash : c ≠ '\\')
    (hPrintable : 0x20 ≤ c.toNat)
    (text : List Char) :
    letters? (c :: text) =
      consLetters [.char c] (letters? text) := by
  rw [letters?.eq_def]
  split
  · next hNil => cases hNil
  · next hEq => cases hEq; exact absurd rfl hQuote
  · next hEq => cases hEq; exact absurd rfl hSlash
  · next hEq => cases hEq; exact absurd rfl hSlash
  · next hEq =>
      cases hEq
      rw [if_neg (by omega)]
      rfl

/- The character has an escape of one letter. -/
def hasLetter (c : Char) : Bool :=
  c == '"' || c == '\\' || c == '\n' || c == '\r' || c == '\t' ||
    c == '\x08' || c == '\x0c'

/- What is written for a character is read as it is spelled. -/
theorem letters?_escape
    (c : Char)
    (text : List Char) :
    letters? (escape c ++ text) =
      consLetters (Letter.spelledChar c) (letters? text) := by
  by_cases hLetter : hasLetter c = true
  · simp only [hasLetter, Bool.or_eq_true, beq_iff_eq] at hLetter
    rcases hLetter with
      (((((rfl | rfl) | rfl) | rfl) | rfl) | rfl) | rfl <;> rfl
  · have hEscape :
        escape c =
          if 0x20 ≤ c.toNat ∧ c.toNat < 0x7F then [c]
          else unitEscapes c := by
      simp only [hasLetter, Bool.or_eq_true, beq_iff_eq,
        not_or] at hLetter
      simp only [escape, hLetter, if_false]
    rw [hEscape]
    rw [Bool.not_eq_true] at hLetter
    split
    · next hPrintable =>
        have hSpelled : Letter.spelledChar c = [.char c] :=
          dif_neg (by omega)
        rw [hSpelled]
        apply letters?_char _ _ hPrintable.1
        · rintro rfl
          cases hLetter
        · rintro rfl
          cases hLetter
    · exact letters?_unitEscapes c text

theorem letters?_letterEscape
    (letter : Letter)
    (text : List Char) :
    letters? (letter.escape ++ text) =
      consLetters letter.spelled (letters? text) := by
  cases letter with
  | char c => exact letters?_escape c text
  | half h => exact letters?_halfEscape h text

end Json

end SymbolAtlas

------------------------------------------------------------
-- Strings
------------------------------------------------------------

namespace SymbolAtlas

namespace Json

/- A string is read as it is spelled, up to and past the quote. -/
theorem letters?_escapes
    (letters : List Letter)
    (rest : List Char) :
    letters? (Letter.escapes letters ++ '"' :: rest) =
      some (letters.flatMap Letter.spelled, rest) := by
  induction letters with
  | nil => rfl
  | cons letter letters ih =>
      unfold Letter.escapes at ih ⊢
      rw [List.flatMap_cons, List.append_assoc,
        letters?_letterEscape, ih]
      rfl

/-
  What is read of a string are its letters, those that belong
  together joined, and a half that is left as its stand-in.
-/
theorem string?_letters
    (letters : List Letter)
    (rest : List Char) :
    string? (Letter.escapes letters ++ '"' :: rest) =
      some ((Letter.merged letters).map Letter.toChar, rest) := by
  unfold string?
  rw [letters?_escapes, Option.map_some]
  dsimp only
  rw [Letter.merged_spelled]

/- A text is printed letter by letter. -/
theorem escapes_eq
    (chars : List Char) :
    escapes chars = Letter.escapes (chars.map .char) := by
  unfold escapes Letter.escapes
  rw [List.flatMap_map]
  rfl

/- A text is read back. -/
theorem string?_escapes
    (chars rest : List Char) :
    string? (escapes chars ++ '"' :: rest) =
      some (chars, rest) := by
  have hChars : (chars.map Letter.char).map Letter.toChar = chars := by
    rw [List.map_map]
    exact List.map_id chars
  rw [escapes_eq, string?_letters, Letter.merged_map_char, hChars]

end Json

namespace Letter

/- A pair of halves is printed as the character they make. -/
theorem escape_joined
    {high low : Half}
    (hHigh : high.isHigh = true)
    (hLow : low.isHigh = false) :
    escape (.char (Half.joined high low)) =
      escape (.half high) ++ escape (.half low) := by
  rcases Half.units_joined hHigh hLow with
    ⟨hFar, hHighUnit, hLowUnit⟩
  have hEscape :
      Json.escape (Half.joined high low) =
        Json.unitEscapes (Half.joined high low) := by
    have hNe :
        ∀ other : Char, other.toNat < 0x10000 →
          Half.joined high low ≠ other := by
      rintro other hNear hSame
      rw [hSame] at hFar
      omega
    unfold Json.escape
    rw [if_neg (hNe _ (by decide)), if_neg (hNe _ (by decide)),
      if_neg (hNe _ (by decide)), if_neg (hNe _ (by decide)),
      if_neg (hNe _ (by decide)), if_neg (hNe _ (by decide)),
      if_neg (hNe _ (by decide)), if_neg (by omega)]
  calc
    escape (.char (Half.joined high low))
      = Json.unitEscapes (Half.joined high low) := hEscape
    _ = Json.unitEscape (Half.highUnit (Half.joined high low)) ++
          Json.unitEscape (Half.lowUnit (Half.joined high low)) :=
        if_neg (Nat.not_lt_of_le hFar)
    _ = escape (.half high) ++ escape (.half low) := by
        rw [hHighUnit, hLowUnit]
        rfl

/- Joining halves changes nothing in what is printed. -/
theorem escapes_merged
    (letters : List Letter) :
    escapes (merged letters) = escapes letters := by
  unfold escapes
  fun_induction merged letters with
  | case1 => rfl
  | case2 high low rest hPair ih =>
      rw [Bool.and_eq_true, Bool.not_eq_true'] at hPair
      rw [List.flatMap_cons, List.flatMap_cons, List.flatMap_cons,
        ih, escape_joined hPair.1 hPair.2, List.append_assoc]
  | case3 high low rest hApart ih =>
      rw [List.flatMap_cons, ih, ← List.flatMap_cons]
  | case4 letter rest hNot ih =>
      rw [List.flatMap_cons, ih, ← List.flatMap_cons]

variable {first second : List Letter} {rest other : List Char}

/-
  Strings that are printed alike up to their closing quotes are
  the same once halves that belong together are joined.
-/
theorem escapes_append_inj
    (hText :
      escapes first ++ '"' :: rest =
        escapes second ++ '"' :: other) :
    merged first = merged second ∧ rest = other := by
  have hRead := congrArg Json.letters? hText
  rw [Json.letters?_escapes, Json.letters?_escapes] at hRead
  rcases Prod.mk.inj (Option.some.inj hRead) with
    ⟨hSpelled, hRest⟩
  refine ⟨?_, hRest⟩
  rw [← merged_spelled, hSpelled, merged_spelled]

end Letter

end SymbolAtlas
