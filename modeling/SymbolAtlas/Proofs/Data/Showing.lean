import SymbolAtlas.Data.Datum

/-
  Why a datum cannot be shown.

  A number in it is too long, or its parts are nested deeper than
  there is room for. Where there is room for all its levels only
  its numbers can be trouble.

  Key definitions:
    * `Datum.IsTrouble`
  Key theorems:
    * `Datum.isTrouble_of_trouble?`
    * `Datum.trouble?_ne_tooDeep`
    * `Datum.eq_longNumber_of_levels`
-/

namespace SymbolAtlas

namespace Datum

variable {room : Nat} {datum : Datum} {error : Error}

/- A number is too long, or parts are nested too deep. -/
def IsTrouble (error : Error) : Prop :=
  error = .longNumber ∨ error = .tooDeep

theorem isTrouble_of_inParts
    {look : Nat → Option Error}
    (hLook :
      ∀ room error, look room = some error → IsTrouble error)
    (hError : inParts room look = some error) :
    IsTrouble error := by
  cases room with
  | zero =>
      cases hError
      exact .inr rfl
  | succ room => exact hLook room error hError

theorem isTrouble_of_or
    {first second : Option Error}
    (hFirst : first = some error → IsTrouble error)
    (hSecond : second = some error → IsTrouble error)
    (hError : first.or second = some error) :
    IsTrouble error := by
  rcases Option.or_eq_some_iff.mp hError with hOr | ⟨-, hOr⟩
  · exact hFirst hOr
  · exact hSecond hOr

mutual

/- What keeps a datum from being shown. -/
theorem isTrouble_of_trouble?
    (datum : Datum)
    (room : Nat)
    (error : Error)
    (hError : datum.trouble? room = some error) :
    IsTrouble error := by
  unfold trouble? at hError
  cases datum with
  | int n =>
      dsimp only at hError
      split at hError
      · cases hError
      · cases hError
        exact .inl rfl
  | list items =>
      exact isTrouble_of_itemsTrouble? items room error hError
  | record fields =>
      exact isTrouble_of_fieldsTrouble? fields room error hError
  | _ => cases hError

theorem isTrouble_of_itemsTrouble?
    (items : List Datum)
    (room : Nat)
    (error : Error)
    (hError : itemsTrouble? room items = some error) :
    IsTrouble error := by
  cases items with
  | nil => cases hError
  | cons item items =>
      unfold itemsTrouble? at hError
      exact isTrouble_of_or
        (isTrouble_of_inParts (isTrouble_of_trouble? item))
        (isTrouble_of_itemsTrouble? items room error) hError

theorem isTrouble_of_fieldsTrouble?
    (fields : List (String × Datum))
    (room : Nat)
    (error : Error)
    (hError : fieldsTrouble? room fields = some error) :
    IsTrouble error := by
  cases fields with
  | nil => cases hError
  | cons field fields =>
      obtain ⟨key, value⟩ := field
      unfold fieldsTrouble? at hError
      exact isTrouble_of_or
        (isTrouble_of_inParts (isTrouble_of_trouble? value))
        (isTrouble_of_fieldsTrouble? fields room error) hError

end

mutual

/- There is no trouble with depth where there is enough room. -/
theorem trouble?_ne_tooDeep
    (datum : Datum)
    (room : Nat)
    (hRoom : datum.levels ≤ room) :
    datum.trouble? room ≠ some .tooDeep := by
  unfold trouble?
  cases datum with
  | int n =>
      dsimp only
      split
      · exact nofun
      · exact nofun
  | list items => exact itemsTrouble?_ne_tooDeep items room hRoom
  | record fields =>
      exact fieldsTrouble?_ne_tooDeep fields room hRoom
  | _ => exact nofun

theorem itemsTrouble?_ne_tooDeep
    (items : List Datum)
    (room : Nat)
    (hRoom : itemsLevels items ≤ room) :
    itemsTrouble? room items ≠ some .tooDeep := by
  cases items with
  | nil => exact nofun
  | cons item items =>
      unfold itemsLevels at hRoom
      rw [Nat.max_le] at hRoom
      obtain ⟨less, rfl⟩ :=
        Nat.exists_eq_succ_of_ne_zero (Nat.ne_zero_of_lt hRoom.1)
      have hItem :=
        trouble?_ne_tooDeep item less
          (Nat.le_of_succ_le_succ hRoom.1)
      have hItems :=
        itemsTrouble?_ne_tooDeep items (less + 1) hRoom.2
      unfold itemsTrouble?
      intro hOr
      rcases Option.or_eq_some_iff.mp hOr with hFirst | ⟨-, hRest⟩
      · exact hItem hFirst
      · exact hItems hRest

theorem fieldsTrouble?_ne_tooDeep
    (fields : List (String × Datum))
    (room : Nat)
    (hRoom : fieldsLevels fields ≤ room) :
    fieldsTrouble? room fields ≠ some .tooDeep := by
  cases fields with
  | nil => exact nofun
  | cons field fields =>
      obtain ⟨key, value⟩ := field
      unfold fieldsLevels at hRoom
      rw [Nat.max_le] at hRoom
      obtain ⟨less, rfl⟩ :=
        Nat.exists_eq_succ_of_ne_zero (Nat.ne_zero_of_lt hRoom.1)
      have hValue :=
        trouble?_ne_tooDeep value less
          (Nat.le_of_succ_le_succ hRoom.1)
      have hFields :=
        fieldsTrouble?_ne_tooDeep fields (less + 1) hRoom.2
      unfold fieldsTrouble?
      intro hOr
      rcases Option.or_eq_some_iff.mp hOr with hFirst | ⟨-, hRest⟩
      · exact hValue hFirst
      · exact hFields hRest

end

/- Where there is enough room only a long number is trouble. -/
theorem eq_longNumber_of_levels
    (hTrouble : datum.trouble? datum.levels = some error) :
    error = .longNumber := by
  rcases isTrouble_of_trouble? datum _ error hTrouble with
    rfl | rfl
  · rfl
  · exact absurd hTrouble (trouble?_ne_tooDeep datum _ (Nat.le_refl _))

/- What cannot be shown is no trouble with the settings. -/
theorem family_of_trouble?
    (hTrouble : datum.trouble? room = some error) :
    error.family ≠ .settings := by
  rcases isTrouble_of_trouble? datum room error hTrouble with
    rfl | rfl
  · exact ErrorFamily.noConfusion
  · exact ErrorFamily.noConfusion

end Datum

end SymbolAtlas
