import SymbolAtlas.Proofs.Search.Patterns

/-
  Where the search below a directory starts.

  The directory is made a text with stars behind it, its brackets
  are escaped, and the mask is put behind that. What stands in
  front of the first stars is expanded as a pattern. So it does
  not depend on the mask, and if the directory has no wildcards
  in its path and ends in no separator, it is the only start.

  Key definitions:
    * `Path.beforeStars`, `Path.IsPlain`
    * `Search.patternOf`, `Search.Means`
  Key theorems:
    * `Search.base_of_location`
    * `Search.isNeat_patternOf`
    * `Search.eq_of_fits_patternOf`
    * `Search.within_plan`, `Search.IsPlanned.means`
-/

------------------------------------------------------------
-- In Front of the Stars
------------------------------------------------------------

namespace SymbolAtlas

namespace Path

/- What stands in front of the first `**` segment of a text. -/
def beforeStars (text : List Char) : List Char :=
  match cutAtStars? true text with
  | some (before, _) => before
  | none => text

/- Whether stars follow is decided before the next slash. -/
theorem isSome_afterStars?_append
    (c : Char)
    (front more : List Char) :
    (afterStars? (c :: (front ++ '/' :: more))).isSome =
      (afterStars? (c :: (front ++ ['/']))).isSome := by
  by_cases hFirst : c = '*'
  · subst hFirst
    rcases front with - | ⟨second, rest⟩
    · rfl
    by_cases hSecond : second = '*'
    · subst hSecond
      rcases rest with - | ⟨third, others⟩
      · rfl
      · simp only [List.cons_append, afterStars?]
        split <;> rfl
    · have hNone (text : List Char) :
          afterStars? ('*' :: second :: text) = none := by
        unfold afterStars?
        split <;> simp_all
      simp only [List.cons_append, hNone]
  · have hNone (text : List Char) :
        afterStars? (c :: text) = none := by
      unfold afterStars?
      split <;> simp_all
    simp only [hNone]

/- Stars behind a slash are found, if none are in front of it. -/
theorem exists_cutAtStars?_append
    (fresh : Bool)
    (front more : List Char) :
    ∃ after,
      cutAtStars? fresh (front ++ '/' :: '*' :: '*' :: '/' :: more) =
        some
          (match cutAtStars? fresh (front ++ ['/']) with
            | some (before, _) => before
            | none => front ++ ['/'], after) := by
  induction front generalizing fresh with
  | nil => cases fresh <;> exact ⟨more, rfl⟩
  | cons c rest ih =>
      have hSome :=
        isSome_afterStars?_append c rest
          ('*' :: '*' :: '/' :: more)
      rcases ih (isSeparator c) with ⟨after, hRest⟩
      rw [List.cons_append, List.cons_append]
      unfold cutAtStars?
      rw [hRest]
      cases hLong :
          afterStars?
            (c :: (rest ++ '/' :: '*' :: '*' :: '/' :: more)) with
      | none =>
          rw [hLong] at hSome
          have hShort :
              afterStars? (c :: (rest ++ ['/'])) = none := by
            simpa using hSome.symm
          rw [hShort]
          refine ⟨after, ?_⟩
          cases fresh <;>
            cases cutAtStars? (isSeparator c) (rest ++ ['/']) <;> rfl
      | some behind =>
          rw [hLong] at hSome
          rcases Option.isSome_iff_exists.mp hSome.symm with
            ⟨short, hShort⟩
          rw [hShort]
          cases fresh with
          | true => exact ⟨behind, rfl⟩
          | false =>
              refine ⟨after, ?_⟩
              cases cutAtStars? (isSeparator c) (rest ++ ['/']) <;>
                rfl

theorem beforeStars_isPrefix
    (text : List Char) :
    beforeStars text <+: text := by
  have hCut (fresh : Bool) :
      ∀ before after,
        cutAtStars? fresh text = some (before, after) →
          before <+: text := by
    induction text generalizing fresh with
    | nil =>
        intro before after hCut
        cases hCut
    | cons c rest ih =>
        intro before after hCut
        unfold cutAtStars? at hCut
        split at hCut
        · cases hCut
          exact List.nil_prefix
        · rcases Option.map_eq_some_iff.mp hCut with
            ⟨⟨front, back⟩, hRest, hSame⟩
          cases hSame
          exact (List.cons_prefix_cons).mpr ⟨rfl, ih _ _ _ hRest⟩
  unfold beforeStars
  split
  · next before after hFound => exact hCut true _ _ hFound
  · exact List.prefix_refl _

/- A text without stars is not cut. -/
theorem cutAtStars?_of_not_mem
    {text : List Char}
    (hText : '*' ∉ text)
    (fresh : Bool) :
    cutAtStars? fresh text = none := by
  induction text generalizing fresh with
  | nil => rfl
  | cons c rest ih =>
      rw [List.mem_cons, not_or] at hText
      have hStars : afterStars? (c :: rest) = none := by
        unfold afterStars?
        split
        · next hChars =>
            cases hChars
            exact absurd rfl hText.1
        · rfl
      unfold cutAtStars?
      rw [hStars, ih hText.2]
      cases fresh <;> rfl

/- Without stars all of a text is in front of them. -/
theorem beforeStars_of_not_mem
    {text : List Char}
    (hText : '*' ∉ text) :
    beforeStars text = text := by
  unfold beforeStars
  rw [cutAtStars?_of_not_mem hText]

/- A text is cut behind a slash or something further on. -/
theorem exists_splitLast_append
    (front more : List Char) :
    ∃ middle,
      (splitLast (front ++ '/' :: more)).1 =
        front ++ '/' :: middle := by
  have hChars :
      (front ++ '/' :: more).reverse =
        more.reverse ++ '/' :: front.reverse := by
    simp
  unfold splitLast
  dsimp only
  rw [hChars, List.dropWhile_append]
  split
  · exact ⟨[], by simp [isSeparator]⟩
  · exact ⟨(more.reverse.dropWhile (!isSeparator ·)).reverse,
      by simp⟩

/- The base of a text with stars is what is in front of them. -/
theorem base_of_stars
    {text : String}
    {front more : List Char}
    (hText : text.toList = front ++ '/' :: '*' :: '*' :: '/' :: more) :
    (splitRecursive text).base =
      String.ofList (beforeStars (front ++ ['/'])) := by
  rcases exists_splitLast_append (front ++ ['/', '*', '*']) more with
    ⟨middle, hMiddle⟩
  rcases exists_cutAtStars?_append true front middle with
    ⟨after, hCut⟩
  have hWhole :
      text.toList = (front ++ ['/', '*', '*']) ++ '/' :: more := by
    simp [hText]
  rcases hSplit : splitLast text.toList with ⟨directory, name⟩
  rw [hWhole] at hSplit
  rw [hSplit] at hMiddle
  have hDirectory :
      directory = front ++ '/' :: '*' :: '*' :: '/' :: middle := by
    simpa using hMiddle
  unfold splitRecursive
  rw [hWhole, hSplit, hDirectory]
  cases front with
  | nil =>
      simp only [List.nil_append] at hCut ⊢
      rw [hCut]
      rfl
  | cons c rest =>
      simp only [List.cons_append] at hCut ⊢
      rw [hCut]
      rfl

end Path

namespace Search

open SymbolAtlas.Path

/- The pattern that the search below a directory starts from. -/
def patternOf (directory : String) : String :=
  String.ofList (beforeStars
    ((escapeBrackets (dropTrailingSeparators directory)).toList ++
      ['/']))

/- Whatever the mask, the search starts from the pattern. -/
theorem base_of_location
    {directory location : String}
    (hLocation : Query.location "/**" directory = .ok location)
    (mask : String) :
    (splitRecursive (escapeBrackets location ++ "/" ++ mask)).base =
      patternOf directory := by
  unfold Query.location at hLocation
  split at hLocation
  · cases hLocation
  cases hLocation
  have hText :
      (escapeBrackets (dropTrailingSeparators directory ++ "/**") ++
          "/" ++ mask).toList =
        (escapeBrackets (dropTrailingSeparators directory)).toList ++
          '/' :: '*' :: '*' :: '/' :: mask.toList := by
    simp [escapeBrackets, escapeBracket, isBracket]
  exact base_of_stars hText

end Search

end SymbolAtlas

------------------------------------------------------------
-- Neat Patterns
------------------------------------------------------------

namespace SymbolAtlas

namespace Path

/- The text of a rooted route has no doubled slashes inside. -/
theorem isNeat_text
    {r : Route}
    (hRead : r.IsRead)
    (hRooted : r.isRooted = true) :
    IsNeat r.text := by
  have hNames : "" ∉ r.names := by
    intro hMem
    cases (hRead.names "" hMem).2
  have hText : r.text = r.root ++ joined r.names := by
    unfold Route.text
    dsimp only
    rw [if_neg]
    unfold Route.isRooted at hRooted
    simp_all
  unfold IsNeat
  rw [hText]
  by_cases hNone : r.names = []
  · rw [hNone]
    rcases hRead.roots with hRoot | hRoot | hRoot <;>
      rw [hRoot] <;> decide
  have hOwn :=
    names_joined (fun name hName => (hRead.names name hName).1)
      hNone
  rcases hRead.roots with hRoot | hRoot | hRoot
  · unfold Route.isRooted at hRooted
    rw [hRoot] at hRooted
    cases hRooted
  · rw [hRoot, names_slash_append, hOwn,
      List.dropLast_cons_of_ne_nil hNone]
    exact fun hMem =>
      hNames (List.dropLast_subset _ (List.mem_of_mem_drop hMem))
  · have hSlashes :
        "//" ++ joined r.names = "/" ++ ("/" ++ joined r.names) := by
      rw [← String.append_assoc]
      rfl
    rw [hRoot, hSlashes, names_slash_append, names_slash_append,
      hOwn, List.dropLast_cons_of_ne_nil (by simp),
      List.dropLast_cons_of_ne_nil hNone]
    exact fun hMem => hNames (List.dropLast_subset _ hMem)

/- A first part of a neat text is neat. -/
theorem dropLast_names_isPrefix
    (text more : String) :
    (names text).dropLast <+: (names (text ++ more)).dropLast := by
  rcases exists_names_concat text with
    ⟨front, last, hNames, hFront, -, hText⟩
  have hWhole :
      text ++ more =
        String.ofList (stretch front ++ (last ++ more).toList) := by
    apply String.toList_injective
    simp [hText]
  rw [hNames, List.dropLast_concat, hWhole,
    names_stretch_append hFront,
    List.dropLast_append_of_ne_nil (names_ne_nil _)]
  exact List.prefix_append _ _

theorem IsNeat.of_append
    {text more : String}
    (hNeat : IsNeat (text ++ more)) :
    IsNeat text := by
  intro hMem
  apply hNeat
  rcases dropLast_names_isPrefix text more with ⟨back, hBack⟩
  rw [← hBack, List.drop_append]
  exact List.mem_append_left _ hMem

/- Nothing but brackets comes with the escaping. -/
theorem mem_escapeBrackets_iff
    {c : Char}
    (hPlain : isBracket c = false)
    (text : String) :
    c ∈ (escapeBrackets text).toList ↔ c ∈ text.toList := by
  have hOne (other : Char) :
      c ∈ escapeBracket other ↔ c = other := by
    unfold escapeBracket
    split
    · have hNot : c ≠ '[' ∧ c ≠ ']' := by
        simpa [isBracket] using hPlain
      simp [hNot.1, hNot.2]
    · exact List.mem_singleton
  unfold escapeBrackets
  simp [hOne]

theorem stretch_escapeBrackets
    (list : List String) :
    stretch (list.map escapeBrackets) =
      (stretch list).flatMap escapeBracket := by
  induction list with
  | nil => rfl
  | cons name rest ih =>
      rw [List.map_cons, stretch_cons, stretch_cons, ih,
        List.flatMap_append, List.flatMap_cons]
      simp [escapeBrackets, escapeBracket, isBracket]

/- Brackets are escaped name by name. -/
theorem names_escapeBrackets
    (text : String) :
    names (escapeBrackets text) = (names text).map escapeBrackets := by
  rcases exists_names_concat text with
    ⟨front, last, hNames, hFront, hLast, hText⟩
  have hWhole :
      escapeBrackets text =
        String.ofList (stretch (front.map escapeBrackets) ++
          (escapeBrackets last).toList) := by
    apply String.toList_injective
    rw [String.toList_ofList, stretch_escapeBrackets]
    simp [escapeBrackets, hText]
  rw [hNames, hWhole, names_stretch_append,
    names_of_not_mem (mt (mem_escapeBrackets_iff rfl _).mp hLast)]
  · simp
  · intro name hName
    rcases List.mem_map.mp hName with ⟨other, hOther, rfl⟩
    exact mt (mem_escapeBrackets_iff rfl _).mp (hFront other hOther)

/- A text that was stripped does not end in a separator. -/
theorem getLast?_dropTrailingSeparators
    {text : String}
    {c : Char}
    (hLast :
      (dropTrailingSeparators text).toList.getLast? = some c) :
    isSeparator c = false := by
  unfold dropTrailingSeparators at hLast
  rw [String.toList_ofList, List.getLast?_reverse] at hLast
  have hHead := List.head?_dropWhile_not isSeparator text.toList.reverse
  rw [hLast] at hHead
  simpa using hHead

theorem exists_dropTrailingSeparators_append
    (text : String) :
    ∃ more, dropTrailingSeparators text ++ more = text := by
  rcases reverse_dropWhile_isPrefix isSeparator text.toList with
    ⟨more, hMore⟩
  refine ⟨String.ofList more, ?_⟩
  apply String.toList_injective
  simpa [dropTrailingSeparators] using hMore

/- A neat text without separators at its end has no empty name. -/
theorem empty_not_mem_drop_names
    {text : String}
    (hNeat : IsNeat text)
    (hEnd : text.toList.getLast? ≠ some '/') :
    "" ∉ (names text).drop 2 := by
  rcases exists_names_concat text with
    ⟨front, last, hNames, -, -, hText⟩
  unfold IsNeat at hNeat
  rw [hNames, List.dropLast_concat] at hNeat
  rw [hNames, List.drop_append, List.mem_append, not_or]
  refine ⟨hNeat, fun hMem => ?_⟩
  have hLast : last = "" := by
    have hOwn := List.mem_of_mem_drop hMem
    exact (List.mem_singleton.mp hOwn).symm
  rcases List.eq_nil_or_concat front with rfl | ⟨init, name, rfl⟩
  · simp at hMem
  · apply hEnd
    rw [hText, hLast]
    simp [stretch]

theorem eq_empty_of_escapeBrackets
    {text : String}
    (hEmpty : escapeBrackets text = "") :
    text = "" := by
  have hChars := congrArg String.toList hEmpty
  unfold escapeBrackets at hChars
  rw [String.toList_ofList] at hChars
  cases hText : text.toList with
  | nil => simpa using hText
  | cons c rest =>
      rw [hText, List.flatMap_cons] at hChars
      unfold escapeBracket at hChars
      split at hChars <;> cases hChars

end Path

namespace Search

open SymbolAtlas.Path

/- A directory without doubled slashes makes a pattern without. -/
theorem isNeat_patternOf
    {directory : String}
    (hRooted : isRooted directory = true)
    (hNormal : normal directory = directory) :
    IsNeat (patternOf directory) := by
  have hDirectory : IsNeat directory := by
    rw [← hNormal]
    exact isNeat_text (Route.isRead_ofText directory)
      ((Route.isRooted_ofText directory).trans hRooted)
  rcases exists_dropTrailingSeparators_append directory with
    ⟨more, hMore⟩
  rw [← hMore] at hDirectory
  have hNames :
      "" ∉ (names (dropTrailingSeparators directory)).drop 2 := by
    apply empty_not_mem_drop_names hDirectory.of_append
    intro hSlash
    cases getLast?_dropTrailingSeparators hSlash
  have hEscaped :
      IsNeat
        (escapeBrackets (dropTrailingSeparators directory) ++ "/" ++
          "") := by
    unfold IsNeat
    rw [names_slash_concat _ (by simp), names_escapeBrackets,
      List.dropLast_concat, ← List.map_drop]
    intro hMem
    rcases List.mem_map.mp hMem with ⟨name, hName, hEmpty⟩
    rw [eq_empty_of_escapeBrackets hEmpty] at hName
    exact hNames hName
  rcases beforeStars_isPrefix
      ((escapeBrackets (dropTrailingSeparators directory)).toList ++
        ['/']) with
    ⟨after, hAfter⟩
  have hWhole :
      escapeBrackets (dropTrailingSeparators directory) ++ "/" ++ "" =
        patternOf directory ++ String.ofList after := by
    apply String.toList_injective
    unfold patternOf
    simp [hAfter]
  rw [hWhole] at hEscaped
  exact hEscaped.of_append

end Search

end SymbolAtlas

------------------------------------------------------------
-- Plain Directories
------------------------------------------------------------

namespace SymbolAtlas

namespace Path

/-
  The text has no wildcards but brackets, and no separator at its
  end unless it is the root.
-/
structure IsPlain (text : String) : Prop where
  chars : ∀ c ∈ text.toList, c ∉ ['*', '?']
  ending :
    text = "/" ∨
      ∃ last,
        text.toList.getLast? = some last ∧
          isSeparator last = false

theorem IsPlain.exists_last
    {text : String}
    (hPlain : IsPlain text)
    (hSome : text ≠ "/") :
    ∃ front last,
      text.toList = front ++ [last] ∧ isSeparator last = false := by
  rcases hPlain.ending with hRoot | ⟨last, hLast, hOther⟩
  · exact absurd hRoot hSome
  · rcases List.getLast?_eq_some_iff.mp hLast with ⟨front, hText⟩
    exact ⟨front, last, hText, hOther⟩

end Path

namespace Search

open SymbolAtlas.Path

variable {directory start : String}

/- All of a plain directory stands in front of the stars. -/
theorem names_patternOf
    (hPlain : IsPlain directory)
    (hSome : directory ≠ "/") :
    names (patternOf directory) =
      (names directory ++ [""]).map escapeBrackets := by
  have hStars :
      '*' ∉ (escapeBrackets directory).toList ++ ['/'] := by
    rw [List.mem_append, not_or, mem_escapeBrackets_iff rfl]
    refine ⟨fun hMem => ?_, by decide⟩
    exact hPlain.chars '*' hMem (by decide)
  rcases hPlain.exists_last hSome with ⟨front, last, hText, hLast⟩
  have hWhole :
      patternOf directory = escapeBrackets directory ++ "/" ++ "" := by
    apply String.toList_injective
    unfold patternOf
    rw [dropTrailingSeparators_of_last hText hLast,
      beforeStars_of_not_mem hStars]
    simp
  rw [hWhole, names_slash_concat _ (by simp), names_escapeBrackets,
    List.map_append]
  rfl

/- A plain directory is the only start of its search. -/
theorem eq_of_fits_patternOf
    (hPlain : IsPlain directory)
    (hFits :
      List.Forall₂ Glob.Fits (names (patternOf directory))
        (names start)) :
    start = child directory "" := by
  by_cases hSome : directory = "/"
  · subst hSome
    have hPattern : patternOf "/" = "/" := by decide
    rw [hPattern] at hFits
    rw [Glob.eq_of_fits_names (by decide) hFits]
    decide
  rw [names_patternOf hPlain hSome, List.forall₂_map_left_iff] at hFits
  have hChars :
      ∀ name ∈ names directory ++ [""],
        ∀ c ∈ name.toList, c ∉ ['*', '?'] := by
    rw [List.forall_mem_append]
    refine ⟨fun name hName c hC => ?_, by simp⟩
    exact hPlain.chars c (mem_toList_of_mem_names hName hC)
  have hSame :
      List.Forall₂ Eq (names directory ++ [""]) (names start) := by
    apply ((List.forall₂_and_left _ _).mpr ⟨hChars, hFits⟩).imp
    rintro name other ⟨hPlainName, hFit⟩
    symm
    apply Glob.eq_of_fits_escaped hPlainName
    assumption
  rw [List.forall₂_eq_eq_eq] at hSame
  rcases hPlain.exists_last hSome with ⟨front, last, hText, hLast⟩
  have hEnd : directory.toList.getLast? ≠ some '/' := by
    rw [hText, List.getLast?_concat]
    rintro ⟨⟩
    cases hLast
  have hNonempty : directory ≠ "" := by
    rintro rfl
    simp at hText
  rw [child_of_no_slash (by simp) hNonempty hEnd,
    ← joined_names start, ← hSame, joined_concat (names_ne_nil _),
    joined_names]

end Search

end SymbolAtlas

------------------------------------------------------------
-- Directories of a Plan
------------------------------------------------------------

namespace SymbolAtlas

namespace Search

variable {d : Disk} {locations : List String} {base : String}

theorem mem_of_get?_addGoals
    {found : List String}
    {goal : Goal}
    {plan : Plan}
    {goals : List Goal}
    (hGet :
      (found.foldl (addGoal · · goal) plan).get? base =
        some goals) :
    base ∈ found ∨ ∃ old, plan.get? base = some old := by
  induction found generalizing plan with
  | nil => exact .inr ⟨goals, hGet⟩
  | cons directory rest ih =>
      rcases ih hGet with hRest | ⟨old, hOld⟩
      · exact .inl (List.mem_cons_of_mem _ hRest)
      · unfold addGoal at hOld
        rw [Keyed.get?_insert] at hOld
        split at hOld
        · next hSame =>
            left
            rw [hSame]
            exact List.mem_cons_self
        · exact .inr ⟨old, hOld⟩

/- A new directory of a plan is one that the reading stands for. -/
theorem get?_of_addSplit
    {kind : EntryKind}
    {plan next : Plan}
    {split : Path.Split}
    {goals : List Goal}
    (hAdd : addSplit d kind plan split = .ok next)
    (hGet : next.get? base = some goals) :
    (∃ found,
      directories d
        (if split.base.isEmpty then "." else split.base) =
          .ok found ∧
      base ∈ found) ∨
    ∃ old, plan.get? base = some old := by
  rcases exists_of_addSplit_eq_ok hAdd with
    ⟨found, mask, hFound, -, rfl⟩
  exact (mem_of_get?_addGoals hGet).imp_left
    fun hMem => ⟨found, hFound, hMem⟩

/- All directories of the plan have the property. -/
def Plan.Within (P : String → Prop) (plan : Plan) : Prop :=
  ∀ base goals, plan.get? base = some goals → P base

/- One of the directories of a reading of a request. -/
def IsPlanned
    (d : Disk)
    (locations : List String)
    (requests : List Request)
    (base : String) : Prop :=
  ∃ request ∈ requests, ∃ readings split found,
    splits locations request = .ok readings ∧
    split ∈ readings ∧
    directories d
      (if split.base.isEmpty then "." else split.base) =
        .ok found ∧
    base ∈ found

/- Every directory of a plan comes from a reading of a request. -/
theorem within_plan
    {requests : List Request}
    {result : Plan}
    (hPlan : plan d locations requests = .ok result) :
    result.Within (IsPlanned d locations requests) := by
  refine foldlM_preserves (Plan.Within _) ?_ ?_ hPlan
  · intro request hRequest old next hOld hAdd
    unfold addRequest at hAdd
    cases hSplits : splits locations request with
    | error error =>
        simp only [hSplits, bind, Except.bind] at hAdd
        cases hAdd
    | ok readings =>
        simp only [hSplits, bind, Except.bind] at hAdd
        refine foldlM_preserves (Plan.Within _) ?_ hOld hAdd
        intro split hSplit before after hBefore hAfter base goals
          hGet
        rcases get?_of_addSplit hAfter hGet with
          ⟨found, hFound, hBase⟩ | ⟨old, hOld⟩
        · exact ⟨request, hRequest, readings, split, found,
            hSplits, hSplit, hFound, hBase⟩
        · exact hBefore base old hOld
  · intro base goals hGet
    cases hGet

/-
  The start is a directory whose names fit those of the pattern
  that the search below the directory starts from.
-/
def Means (d : Disk) (directory start : String) : Prop :=
  d.isDirectory start = true ∧
    List.Forall₂ Glob.Fits (Path.names (patternOf directory))
      (Path.names start)

/- At a location below a directory all starts are meant by it. -/
theorem IsPlanned.means
    (hSound : d.IsSound)
    {directory location : String}
    (hRooted : Path.isRooted directory = true)
    (hNormal : Path.normal directory = directory)
    (hLocation : Query.location "/**" directory = .ok location)
    {requests : List Request}
    (hPlanned : IsPlanned d [location] requests base) :
    Means d directory base := by
  rcases hPlanned with
    ⟨request, -, readings, split, found, hSplits, hSplit, hFound,
      hBase⟩
  have hBaseRooted :=
    isRooted_of_mem_splits (by simp)
      (fun other hOther => by
        rw [List.mem_singleton.mp hOther]
        exact Path.isRooted_location hRooted (by decide) hLocation)
      hSplits hSplit
  have hPattern : split.base = patternOf directory := by
    unfold splits at hSplits
    split at hSplits
    · cases hSplits
    · cases hSplits
      rw [List.isEmpty_cons, if_neg Bool.false_ne_true,
        List.map_cons, List.map_nil, List.mem_singleton] at hSplit
      rw [hSplit]
      exact base_of_location hLocation request.mask
  have hSome : ¬ split.base.isEmpty = true := by
    intro hEmpty
    rw [String.isEmpty_iff] at hEmpty
    rw [hEmpty] at hBaseRooted
    cases hBaseRooted
  rw [if_neg hSome, hPattern] at hFound
  rw [hPattern] at hBaseRooted
  exact fits_of_mem_directories hSound hBaseRooted
    (isNeat_patternOf hRooted hNormal) hFound hBase

end Search

end SymbolAtlas
