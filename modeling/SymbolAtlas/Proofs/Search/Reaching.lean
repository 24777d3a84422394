import SymbolAtlas.Proofs.Path.Stretches
import SymbolAtlas.Proofs.Search.Arrivals

/-
  Where the path of a record leads.

  A walk drops a dot and its separator once for each name on the
  way. So the path of a record is the relative path below the
  base, without so many dots in front. It leads to the entry
  unless a dot that is dropped has a slash behind its separator,
  or a backslash for a separator, which is part of a name.

  Key definitions:
    * `Path.strays`

  Key theorems:
    * `Path.undots_iterate_iff`
    * `Path.pathAlong_eq_iterate`
    * `Search.record_path_leads_to_entry_unless_it_strays`
-/

------------------------------------------------------------
-- Dropping Dots
------------------------------------------------------------

namespace SymbolAtlas

namespace Path

open Record (withoutDot)

/- Dropping so many dots uncovers a slash or cuts a name. -/
def strays : Nat → List Char → Bool
| _ + 1, '.' :: '\\' :: _ => true
| _ + 1, '.' :: '/' :: '/' :: _ => true
| n + 1, '.' :: '/' :: rest => strays n rest
| _, _ => false

theorem withoutDot_slash
    (text : String) :
    withoutDot ("./" ++ text) = text := by
  simp [withoutDot, isSeparator]

theorem withoutDot_backslash
    (text : String) :
    withoutDot (".\\" ++ text) = text := by
  simp [withoutDot, isSeparator]

/- A text has a dot and a separator in front or stays. -/
theorem dot_cases
    (text : String) :
    (∃ other, text = "./" ++ other) ∨
      (∃ other, text = ".\\" ++ other) ∨
      (withoutDot text = text ∧
        ∀ n, strays n text.toList = false) := by
  by_cases hDot :
      ∃ c rest, text.toList = '.' :: c :: rest ∧
        isSeparator c = true
  · rcases hDot with ⟨c, rest, hText, hSeparator⟩
    have hOther :
        text = String.ofList ['.', c] ++ String.ofList rest := by
      apply String.toList_injective
      simp [hText]
    have hKind : c = '/' ∨ c = '\\' := by
      simpa [isSeparator] using hSeparator
    rcases hKind with rfl | rfl
    · exact Or.inl ⟨_, hOther⟩
    · exact Or.inr (Or.inl ⟨_, hOther⟩)
  · have hNone :
        ∀ c rest, text.toList = '.' :: c :: rest →
          isSeparator c = false := by
      intro c rest hText
      rw [← Bool.not_eq_true]
      exact fun hSeparator => hDot ⟨c, rest, hText, hSeparator⟩
    refine Or.inr (Or.inr ⟨?_, ?_⟩)
    · unfold withoutDot
      split
      · next c rest hText =>
          rw [hNone c rest hText, if_neg Bool.false_ne_true]
      · rfl
    · intro n
      unfold strays
      split
      · next hText => cases hNone _ _ hText
      · next hText => cases hNone _ _ hText
      · next hText => cases hNone _ _ hText
      · rfl

theorem strays_slash
    (n : Nat)
    (text : String) :
    strays (n + 1) ("./" ++ text).toList =
      (isRooted text || strays n text.toList) := by
  rw [String.toList_append]
  unfold isRooted
  cases text.toList with
  | nil => rfl
  | cons c rest =>
      change strays (n + 1) ('.' :: '/' :: c :: rest) = _
      by_cases hSlash : c = '/'
      · subst hSlash
        rfl
      · rw [strays]
        · simp [hSlash]
        · simpa using hSlash

theorem length_iterate_withoutDot
    (n : Nat)
    (text : String) :
    (withoutDot^[n] text).length ≤ text.length := by
  induction n generalizing text with
  | zero => exact Nat.le_refl _
  | succ n ih =>
      rw [Function.iterate_succ_apply]
      rcases dot_cases text with
        ⟨other, rfl⟩ | ⟨other, rfl⟩ | ⟨hSame, -⟩
      · rw [withoutDot_slash, String.length_append]
        exact (ih other).trans (Nat.le_add_left _ _)
      · rw [withoutDot_backslash, String.length_append]
        exact (ih other).trans (Nat.le_add_left _ _)
      · rw [hSame]
        exact ih text

/- Undotting a text that is longer takes away its first dot. -/
theorem undots_dot_iff
    {text other : String}
    (hLess : text.length ≤ other.length) :
    Undots text ("./" ++ other) ↔
      text ≠ "" ∧ isRooted text = false ∧ Undots text other := by
  constructor
  · intro hUndots
    generalize hWhole : "./" ++ other = whole at hUndots
    cases hUndots with
    | same =>
        rw [← hWhole, String.length_append] at hLess
        exact absurd hLess
          (Nat.not_le.mpr (Nat.lt_add_of_pos_left (by decide)))
    | dot hSome hRelative hOther =>
        rw [String.append_right_inj] at hWhole
        rw [hWhole]
        exact ⟨hSome, hRelative, hOther⟩
  · rintro ⟨hSome, hRelative, hOther⟩
    exact .dot hSome hRelative hOther

/-
  Dots that are dropped mean nothing exactly if the text does
  not stray. The induction is on the number of dots.
-/
theorem undots_iterate_iff
    {n : Nat}
    {text : String}
    (hEnd : text.toList.getLast? ≠ some '/') :
    Undots (withoutDot^[n] text) text ↔
      strays n text.toList = false := by
  induction n generalizing text with
  | zero =>
      refine ⟨fun _ => ?_, fun _ => .same _⟩
      unfold strays
      rfl
  | succ n ih =>
      rcases dot_cases text with
        ⟨other, rfl⟩ | ⟨other, rfl⟩ | ⟨hSame, hNever⟩
      · have hSome : other ≠ "" := by
          rintro rfl
          exact hEnd (by decide)
        have hLast :
            other.toList.getLast? ≠ some '/' := by
          rw [String.toList_append, List.getLast?_append_of_ne_nil
            _ (by simpa using hSome)] at hEnd
          exact hEnd
        rw [Function.iterate_succ_apply, withoutDot_slash,
          undots_dot_iff (length_iterate_withoutDot n other),
          ih hLast, strays_slash, Bool.or_eq_false_iff]
        constructor
        · rintro ⟨-, hRelative, hKeeps⟩
          have hUndots := (ih hLast).mpr hKeeps
          exact ⟨hUndots.isRooted_eq.trans hRelative, hKeeps⟩
        · rintro ⟨hRelative, hKeeps⟩
          have hUndots := (ih hLast).mpr hKeeps
          exact
            ⟨hUndots.ne_empty_iff.mp hSome,
              hUndots.isRooted_eq.symm.trans hRelative, hKeeps⟩
      · have hShort := length_iterate_withoutDot n other
        rw [Function.iterate_succ_apply, withoutDot_backslash]
        have hStrays :
            strays (n + 1) (".\\" ++ other).toList = true := by
          rw [String.toList_append]
          rfl
        rw [hStrays]
        constructor
        · intro hUndots
          generalize hWhole : ".\\" ++ other = whole at hUndots
          cases hUndots with
          | same =>
              rw [← hWhole, String.length_append] at hShort
              exact absurd hShort
                (Nat.not_le.mpr
                  (Nat.lt_add_of_pos_left (by decide)))
          | dot =>
              have hChars := congrArg String.toList hWhole
              simp at hChars
        · rintro ⟨⟩
      · rw [Function.iterate_fixed hSame, hNever]
        exact ⟨fun _ => rfl, fun _ => .same _⟩

end Path

end SymbolAtlas

------------------------------------------------------------
-- The Texts of a Walk
------------------------------------------------------------

namespace SymbolAtlas

namespace Path

open Record (withoutDot)

/- An absolute text has no dot in front. -/
theorem withoutDot_of_isAbsolute
    {text : String}
    (hAbsolute : isAbsolute text = true) :
    withoutDot text = text := by
  have hRelative (c : Char) (other : String) :
      isAbsolute (String.ofList ['.', c] ++ other) = false := by
    unfold isAbsolute
    rw [String.toList_append, String.toList_ofList]
    change (startsAtRoot ('.' :: c :: other.toList) || _) = false
    cases other.toList <;>
      simp [startsAtRoot, startsWithScheme, isSeparator,
        isDriveLetter]
  rcases dot_cases text with
    ⟨other, rfl⟩ | ⟨other, rfl⟩ | ⟨hSame, -⟩
  · exact absurd ((hRelative '/' other).symm.trans hAbsolute)
      Bool.false_ne_true
  · exact absurd ((hRelative '\\' other).symm.trans hAbsolute)
      Bool.false_ne_true
  · exact hSame

/- One dot is dropped from any text on the way. -/
theorem pathOf_eq_withoutDot
    (text : String)
    {name : String}
    (hName : Disk.IsName name) :
    Record.pathOf text name = withoutDot (child text name) := by
  unfold Record.pathOf
  dsimp only
  split
  · next hAbsolute =>
      rw [withoutDot_of_isAbsolute
        (isAbsolute_child hAbsolute hName)]
  · rfl

/-
  The text has so many slashes in it and none at its end, so
  that many dots can be dropped before its last name is reached.
-/
structure HasSlashes (n : Nat) (text : String) : Prop where
  count : n ≤ text.toList.count '/'
  last : text.toList.getLast? ≠ some '/'

theorem withoutDot_append
    {text : String}
    {c e : Char}
    {rest : List Char}
    (hText : text.toList = c :: e :: rest)
    (more : String) :
    withoutDot (text ++ more) = withoutDot text ++ more := by
  unfold withoutDot
  rw [String.toList_append, hText]
  by_cases hDot : c = '.'
  · subst hDot
    change
      (if isSeparator e then String.ofList (rest ++ more.toList)
        else text ++ more) =
      (if isSeparator e then String.ofList rest else text) ++ more
    split
    · apply String.toList_injective
      simp
    · rfl
  · split
    · next hOther =>
        rw [List.cons_append] at hOther
        injection hOther with hHead
        exact absurd hHead hDot
    · split
      · next hOther =>
          injection hOther with hHead
          exact absurd hHead hDot
      · rfl

theorem HasSlashes.exists_toList_eq
    {n : Nat}
    {text : String}
    (hSlashes : HasSlashes (n + 1) text) :
    ∃ c e rest, text.toList = c :: e :: rest := by
  rcases hSlashes with ⟨hCount, hLast⟩
  match hText : text.toList with
  | [] =>
      rw [hText] at hCount
      simp at hCount
  | [c] =>
      rw [hText] at hCount hLast
      have hPositive := Nat.lt_of_lt_of_le (Nat.succ_pos n) hCount
      rw [List.count_pos_iff, List.mem_singleton] at hPositive
      exact absurd (by rw [← hPositive]; rfl) hLast
  | c :: e :: rest => exact ⟨c, e, rest, rfl⟩

theorem HasSlashes.withoutDot
    {n : Nat}
    {text : String}
    (hSlashes : HasSlashes (n + 1) text) :
    HasSlashes n (withoutDot text) ∧ withoutDot text ≠ "" := by
  rcases hSlashes with ⟨hCount, hLast⟩
  -- A text with a slash does not end behind its dot.
  have hOther {c : Char} {other : String}
      (hText : text = String.ofList ['.', c] ++ other) :
      HasSlashes n other ∧ other ≠ "" := by
    have hChars : text.toList = '.' :: c :: other.toList := by
      rw [hText]
      simp
    rw [hChars] at hCount hLast
    have hSome : other.toList ≠ [] := by
      intro hNone
      rw [hNone] at hCount hLast
      have hSlash : c = '/' := by
        by_contra hNot
        simp [hNot] at hCount
      rw [hSlash] at hLast
      exact hLast rfl
    refine ⟨⟨?_, ?_⟩, by simpa using hSome⟩
    · rw [List.count_cons, List.count_cons] at hCount
      split at hCount <;> simp at hCount <;> omega
    · rwa [List.getLast?_cons_cons,
        List.getLast?_cons_of_ne_nil hSome] at hLast
  rcases dot_cases text with
    ⟨other, hText⟩ | ⟨other, hText⟩ | ⟨hSame, -⟩
  · rw [hText, withoutDot_slash]
    exact hOther hText
  · rw [hText, withoutDot_backslash]
    exact hOther hText
  · rw [hSame]
    refine ⟨⟨Nat.le_of_succ_le hCount, hLast⟩, ?_⟩
    rintro rfl
    simp at hCount

/- Dropping a dot and going down commute. -/
theorem HasSlashes.child_withoutDot
    {n : Nat}
    {text : String}
    (hSlashes : HasSlashes (n + 1) text)
    {name : String}
    (hName : Disk.IsName name) :
    child (Record.withoutDot text) name =
      Record.withoutDot (child text name) := by
  rcases hSlashes.withoutDot with ⟨hRest, hSome⟩
  rcases hSlashes.exists_toList_eq with ⟨c, e, rest, hText⟩
  have hWhole : text ≠ "" := by
    rintro rfl
    cases hText
  rw [child_of_no_slash hName.2 hSome hRest.last,
    child_of_no_slash hName.2 hWhole hSlashes.last,
    String.append_assoc, String.append_assoc,
    withoutDot_append hText]

theorem child_iterate_withoutDot
    {n : Nat}
    {text : String}
    (hSlashes : HasSlashes n text)
    {name : String}
    (hName : Disk.IsName name) :
    child (withoutDot^[n] text) name =
      withoutDot^[n] (child text name) := by
  induction n generalizing text with
  | zero => rfl
  | succ n ih =>
      rw [Function.iterate_succ_apply, Function.iterate_succ_apply,
        ih hSlashes.withoutDot.1, hSlashes.child_withoutDot hName]

/- There is a slash behind the base and behind each name. -/
theorem hasSlashes_below
    {base : String}
    (hBase : base ≠ "")
    {trail : List String}
    (hSome : trail ≠ [])
    (hNames : ∀ name ∈ trail, Disk.IsName name) :
    HasSlashes trail.length (below base trail) := by
  induction trail using List.reverseRecOn with
  | nil => exact absurd rfl hSome
  | append_singleton front name ih =>
      rw [List.forall_mem_append, List.forall_mem_singleton]
        at hNames
      rw [below_concat]
      refine ⟨?_, getLast?_child _ hNames.2⟩
      rw [List.length_append, List.length_singleton]
      by_cases hFront : front = []
      · subst hFront
        rcases child_cases base hNames.2 with
          ⟨hChild, hEnd⟩ | ⟨hChild, -, -⟩
        · have hSlash : '/' ∈ base.toList :=
            List.mem_of_getLast? (hEnd.resolve_left hBase)
          have hCount := List.count_pos_iff.mpr hSlash
          change _ ≤ (child base name).toList.count '/'
          rw [hChild, String.toList_append, List.count_append,
            List.length_nil]
          omega
        · change _ ≤ (child base name).toList.count '/'
          rw [hChild, String.toList_append, String.toList_append,
            List.count_append, List.count_append]
          change 1 ≤ _ + 1 + _
          omega
      · rcases ih hFront hNames.1 with ⟨hCount, hLast⟩
        have hSomeFront : below base front ≠ "" := by
          intro hNone
          rw [hNone] at hCount
          exact hFront (by simpa using hCount)
        rw [child_of_no_slash hNames.2.2 hSomeFront hLast,
          String.toList_append, String.toList_append,
          List.count_append, List.count_append]
        change _ ≤ _ + 1 + _
        omega

/-
  The path of a record is its relative path below the base less
  a dot for each name. The induction is on the names.
-/
theorem pathAlong_eq_iterate
    {base : String}
    (hBase : base ≠ "")
    {trail : List String}
    (hNames : ∀ name ∈ trail, Disk.IsName name) :
    Record.pathAlong base trail =
      withoutDot^[trail.length] (below base trail) := by
  induction trail using List.reverseRecOn with
  | nil => rfl
  | append_singleton front name ih =>
      rw [List.forall_mem_append, List.forall_mem_singleton]
        at hNames
      have hChild :
          child (withoutDot^[front.length] (below base front))
              name =
            withoutDot^[front.length]
              (child (below base front) name) := by
        by_cases hFront : front = []
        · subst hFront
          rfl
        · exact child_iterate_withoutDot
            (hasSlashes_below hBase hFront hNames.1) hNames.2
      rw [Record.pathAlong_concat, below_concat,
        pathOf_eq_withoutDot _ hNames.2, ih hNames.1, hChild,
        List.length_append, List.length_singleton,
        Function.iterate_succ_apply']

/- A trail below a base is its joined names below the base. -/
theorem below_eq_child
    (base : String)
    {trail : List String}
    (hSome : trail ≠ [])
    (hNames : ∀ name ∈ trail, Disk.IsName name) :
    below base trail = child base (joined trail) := by
  have hFront :
      ∃ front, ∀ text, isRooted text = false →
        child base text = front ++ text := by
    by_cases hEnd :
        (base.isEmpty || base.toList.getLast? == some '/') = true
    · refine ⟨base, fun text hRelative => ?_⟩
      unfold child
      rw [hRelative, if_neg Bool.false_ne_true, if_pos hEnd]
    · refine ⟨base ++ "/", fun text hRelative => ?_⟩
      unfold child
      rw [hRelative, if_neg Bool.false_ne_true, if_neg hEnd]
  rcases hFront with ⟨front, hFront⟩
  rw [hFront _ (isRooted_joined_of_isName hNames)]
  induction trail using List.reverseRecOn with
  | nil => exact absurd rfl hSome
  | append_singleton way name ih =>
      rw [List.forall_mem_append, List.forall_mem_singleton]
        at hNames
      rw [below_concat]
      by_cases hWay : way = []
      · subst hWay
        change child base name = front ++ joined [name]
        rw [hFront _ (isRooted_of_isName hNames.2)]
        rfl
      · rw [ih hWay hNames.1,
          child_append _ (joined_ne_empty hNames.1 hWay) hNames.2,
          child_joined hWay hNames.1 hNames.2]

end Path

end SymbolAtlas

------------------------------------------------------------
-- Paths of Records
------------------------------------------------------------

namespace SymbolAtlas

namespace Path

/- What strays goes on to stray, whatever comes behind. -/
theorem strays_append
    {m n : Nat}
    {text : List Char}
    (hStrays : strays m text = true)
    (hLe : m ≤ n)
    (more : List Char) :
    strays n (text ++ more) = true := by
  fun_induction strays m text generalizing n with
  | case1 m rest =>
      cases n with
      | zero => cases hLe
      | succ n => rfl
  | case2 m rest =>
      cases n with
      | zero => cases hLe
      | succ n => rfl
  | case3 m rest hNone ih =>
      cases n with
      | zero => cases hLe
      | succ n =>
          have hRest := ih hStrays (Nat.le_of_succ_le_succ hLe)
          cases rest with
          | nil => cases m <;> cases hStrays
          | cons c others =>
              have hSlash : c ≠ '/' :=
                fun hSame => hNone others (by rw [hSame])
              rw [List.cons_append, List.cons_append, strays]
              · exact hRest
              · intro other hOther
                injection hOther with hHead
                exact hSlash hHead
  | case4 => cases hStrays

theorem below_append
    (base : String)
    (front : List String)
    {rest : List String}
    (hNames : ∀ name ∈ rest, Disk.IsName name) :
    ∃ more, below base (front ++ rest) = below base front ++ more := by
  induction rest using List.reverseRecOn with
  | nil => exact ⟨"", by simp⟩
  | append_singleton rest name ih =>
      rw [List.forall_mem_append, List.forall_mem_singleton]
        at hNames
      rcases ih hNames.1 with ⟨more, hMore⟩
      rw [← List.append_assoc, below_concat, hMore]
      rcases child_cases (below base front ++ more) hNames.2 with
        ⟨hChild, -⟩ | ⟨hChild, -⟩
      · exact ⟨more ++ name, by rw [hChild, String.append_assoc]⟩
      · refine ⟨more ++ ("/" ++ name), ?_⟩
        rw [hChild, String.append_assoc, String.append_assoc]

/- The text below a base, if it does not stray, is undotted. -/
theorem undots_pathAlong_iff
    {base : String}
    (hBase : base ≠ "")
    {trail : List String}
    (hSome : trail ≠ [])
    (hNames : ∀ name ∈ trail, Disk.IsName name) :
    Undots (Record.pathAlong base trail) (below base trail) ↔
      strays trail.length (below base trail).toList = false := by
  rw [pathAlong_eq_iterate hBase hNames]
  exact undots_iterate_iff
    (hasSlashes_below hBase hSome hNames).last

/- If the text of a trail does not stray, none before it does. -/
theorem undots_of_not_strays
    {base : String}
    (hBase : base ≠ "")
    {trail front : List String}
    (hNames : ∀ name ∈ trail, Disk.IsName name)
    (hKeeps : strays trail.length (below base trail).toList = false)
    (hFront : front <+: trail) :
    Undots (Record.pathAlong base front) (below base front) := by
  by_cases hNone : front = []
  · subst hNone
    exact .same base
  · rcases hFront with ⟨rest, rfl⟩
    rw [List.forall_mem_append] at hNames
    rw [undots_pathAlong_iff hBase hNone hNames.1,
      ← Bool.not_eq_true]
    intro hStrays
    rcases below_append base front hNames.2 with
      ⟨more, hMore⟩
    rw [hMore, String.toList_append, List.length_append,
      strays_append hStrays (Nat.le_add_right _ _)] at hKeeps
    cases hKeeps

end Path

namespace Search

variable {w : Walker} {d : Disk} {base : String}
variable {goals : List Goal} {record : Record}

/- Nothing is listed below no text at all. -/
theorem Walker.Comes.base_ne_empty
    {front : List String}
    {name : String}
    (hComes : w.Comes goals (Listed d base) front name record) :
    base ≠ "" := by
  have hFirst :
      ∃ step, [] ++ [step] <+: front ++ [name] := by
    cases front with
    | nil => exact ⟨name, List.prefix_rfl⟩
    | cons step rest => exact ⟨step, rest ++ [name], rfl⟩
  rcases hFirst with ⟨step, hStep⟩
  rcases hComes.exists_listed hStep with ⟨entry, hListed, -⟩
  rcases Disk.exists_place_of_mem_namesAt hListed.listed with
    ⟨place, mtime, hLocate, -⟩
  rintro rfl
  cases hLocate

/-
  The path of a record is the relative path below the base less
  a dot and separator for each name. It leads to the entry, and
  the names of the relative path lead there too, unless it
  strays; that takes a base with dots in front that are followed
  by two slashes, or a name with a dot and a backslash in front.
-/
theorem record_path_leads_to_entry_unless_it_strays
    (hSound : d.IsSound)
    (hRecord : record ∈ (w.walk d base goals).records) :
    ∃ front name,
      let text := Path.child base record.relative
      let strays := Path.strays (front.length + 1) text.toList
      record.relative = Path.joined (front ++ [name]) ∧
        record.path = Record.withoutDot^[front.length + 1] text ∧
        (Path.Undots record.path text ↔ strays = false) ∧
        ((Path.isAbsolute base = true ∨ Path.KeepsCourse base) →
          (∀ step ∈ front ++ [name], Path.IsUndotted step) →
            strays = false) ∧
        (strays = false →
          IsTrail d base front ∧
            IsEntry d base front name record ∧
            ∀ followLast,
              d.locate followLast record.path =
                d.locate followLast text) := by
  rcases Walker.comes_of_mem_walk hSound hRecord with
    ⟨front, name, -, -, hComes⟩
  have hBase := hComes.base_ne_empty
  have hNames := hComes.isName_of_listed hSound
  have hSome : front ++ [name] ≠ [] := by simp
  have hLength : (front ++ [name]).length = front.length + 1 := by
    simp
  have hFrontNames : ∀ step ∈ front, Disk.IsName step :=
    fun step hStep => hNames step (List.mem_append_left _ hStep)
  have hRelative := hComes.entry.relative_eq hFrontNames
  have hText :
      Path.below base (front ++ [name]) =
        Path.child base record.relative := by
    rw [hRelative]
    exact Path.below_eq_child base hSome hNames
  have hUndots := Path.undots_pathAlong_iff hBase hSome hNames
  have hPath := hComes.entry.path_eq
  rw [hLength, hText, ← hPath] at hUndots
  refine ⟨front, name, hRelative, ?_, hUndots, ?_, ?_⟩
  · rw [hPath, Path.pathAlong_eq_iterate hBase hNames, hLength,
      hText]
  · intro hCourse hUndotted
    rw [← hUndots, ← hText, hPath]
    exact Path.undots_pathAlong hCourse hNames hUndotted
  · intro hKeeps
    have hWhole :
        Path.strays (front ++ [name]).length
          (Path.below base (front ++ [name])).toList = false := by
      rw [hLength, hText]
      exact hKeeps
    have hEntry {way : List String} {step : String}
        (hWay : way ++ [step] <+: front ++ [name])
        {entry : Record}
        (hListed : Listed d base way step entry) :
        IsEntry d base way step entry := by
      have hBefore := (List.prefix_append way [step]).trans hWay
      apply (listed_iff_isEntry hSound _ _).mp hListed
      · exact fun other hOther => hNames other (hBefore.mem hOther)
      · exact Path.undots_of_not_strays hBase hNames hWhole hBefore
    refine ⟨?_, hEntry List.prefix_rfl hComes.entry, ?_⟩
    · intro way step hWay
      rcases hComes.way way step hWay with ⟨entry, hListed, hOpens⟩
      have hOn := hWay.trans (List.prefix_append front [name])
      exact ⟨entry, hEntry hOn hListed, hOpens.1⟩
    · intro followLast
      exact
        (Disk.locate_of_undots (hUndots.mpr hKeeps) followLast).symm

/-
  With a dot in front of the library the path of its file leads
  to the file. With two slashes behind the dot the path of its
  directory leads elsewhere.
-/
theorem library_paths :
    let file : Record :=
      ⟨"lib/sub/f.php", "sub/f.php", .file, 1000⟩
    let stray : Record :=
      ⟨"/lib/sub", "sub", .dir, Node.directoryTime⟩
    (file ∈ (({} : Walker).walk Disk.library "./lib"
        everyGoal).records ∧
      Disk.library.locate true file.path =
        Disk.library.locate true
          (Path.child "./lib" file.relative)) ∧
      stray ∈ (({} : Walker).walk Disk.library ".//lib"
        everyGoal).records ∧
      (Disk.library.locate true stray.path).toOption = none ∧
      (Disk.library.locate true
        (Path.child ".//lib" stray.relative)).toOption.map
          Disk.Found.place = some ["w", "lib", "sub"] := by
  intro file stray
  have hFile :
      file ∈ (({} : Walker).walk Disk.library "./lib"
        everyGoal).records := by
    decide +kernel
  refine ⟨⟨hFile, ?_⟩, ?_, ?_, ?_⟩
  · rcases record_path_leads_to_entry_unless_it_strays
        Disk.isSound_library hFile with
      ⟨front, name, -, -, hUndots, -, hLeads⟩
    have hText :
        Path.child "./lib" file.relative = "./" ++ file.path := by
      decide
    have hDot :
        Path.Undots file.path (Path.child "./lib" file.relative) := by
      rw [hText]
      exact .dot (by decide) (by decide) (.same _)
    exact (hLeads (hUndots.mp hDot)).2.2 true
  · decide +kernel
  · decide +kernel
  · decide +kernel

end Search

end SymbolAtlas
