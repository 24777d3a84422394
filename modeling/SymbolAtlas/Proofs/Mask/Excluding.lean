import SymbolAtlas.Mask.Exclusion
import SymbolAtlas.Proofs.Mask.Segments

/-
  How an exclusion mask falls into a core and a scope.

  A slash and stars in front of the mask are dropped as far as
  something is left. What is left is a core and a suffix, and of
  all ways to read it so the one with the longest suffix counts.
  The search for it tries one way after the other.

  Key definitions:
    * `Exclusion.body?`, `Exclusion.IsSplit`
    * `Exclusion.Splits`

  Key theorems:
    * `Exclusion.coreOf?_eq_some_iff`
    * `Exclusion.split?_eq_some_iff`
    * `Exclusion.compile_takes_longest_suffix`
-/

------------------------------------------------------------
-- Cores
------------------------------------------------------------

namespace SymbolAtlas

namespace Exclusion

/-
  A body is a core, which is not empty, and the suffix of a
  scope; no other scope with a longer suffix will do.
-/
def IsSplit
    (body core : List Char)
    (scope : Scope) : Prop :=
  core ≠ [] ∧ core ++ scope.suffix = body ∧
    ∀ (other : List Char) (wider : Scope),
      other ≠ [] → other ++ wider.suffix = body →
        wider.suffix.length ≤ scope.suffix.length

/- Scopes differ in their suffixes. -/
theorem Scope.suffix_injective :
    Function.Injective Scope.suffix := by
  intro first second hSuffix
  cases first <;> cases second <;> first | rfl | cases hSuffix

theorem Scope.ofSuffix?_eq_some_iff
    {text : List Char}
    {scope : Scope} :
    Scope.ofSuffix? text = some scope ↔ scope.suffix = text := by
  unfold Scope.ofSuffix?
  constructor
  · intro hFound
    simpa using List.find?_some hFound
  · rintro rfl
    cases scope <;> rfl

theorem mem_cuts_iff
    {body core back : List Char} :
    (core, back) ∈ cuts body ↔ core ≠ [] ∧ core ++ back = body := by
  induction body generalizing core with
  | nil => simp +contextual [cuts]
  | cons c rest ih =>
      rw [cuts, List.mem_cons, List.mem_map]
      constructor
      · rintro (hFirst | ⟨⟨inner, more⟩, hInner, hPair⟩)
        · cases hFirst
          simp
        · cases hPair
          simp [(ih.mp hInner).2]
      · rintro ⟨hSome, hBody⟩
        rcases core with _ | ⟨first, _ | ⟨second, others⟩⟩
        · exact absurd rfl hSome
        · cases hBody
          exact Or.inl rfl
        · rw [List.cons_append, List.cons.injEq] at hBody
          rw [← hBody.1]
          exact Or.inr ⟨(second :: others, back),
            ih.mpr ⟨by simp, hBody.2⟩, rfl⟩

/- Shorter cores come first. -/
theorem pairwise_cuts
    (body : List Char) :
    (cuts body).Pairwise fun first second =>
      first.1.length < second.1.length := by
  induction body with
  | nil => exact .nil
  | cons c rest ih =>
      rw [cuts, List.pairwise_cons, List.pairwise_map]
      constructor
      · intro cut hCut
        rcases List.mem_map.mp hCut with ⟨⟨core, back⟩, hMem, rfl⟩
        have hSome := (mem_cuts_iff.mp hMem).1
        simpa [List.length_pos_iff] using hSome
      · exact ih.imp fun hLess => by simpa using hLess

/- A body has one split at most. -/
theorem IsSplit.unique
    {body core other : List Char}
    {scope wider : Scope}
    (hSplit : IsSplit body core scope)
    (hOther : IsSplit body other wider) :
    core = other ∧ scope = wider := by
  have hLength : scope.suffix.length = wider.suffix.length :=
    le_antisymm
      (hOther.2.2 core scope hSplit.1 hSplit.2.1)
      (hSplit.2.2 other wider hOther.1 hOther.2.1)
  have hBoth :=
    List.append_inj' (hSplit.2.1.trans hOther.2.1.symm) hLength
  exact ⟨hBoth.1, Scope.suffix_injective hBoth.2⟩

theorem isSplit_of_coreOf?
    {body core : List Char}
    {scope : Scope}
    (hCore : coreOf? body = some (core, scope)) :
    IsSplit body core scope := by
  rcases List.findSome?_eq_some_iff.mp hCore with
    ⟨before, cut, after, hCuts, hFound, hBefore⟩
  rcases Option.map_eq_some_iff.mp hFound with
    ⟨found, hSuffix, hPair⟩
  rw [Scope.ofSuffix?_eq_some_iff] at hSuffix
  have hCut : cut = (core, scope.suffix) := by
    rw [← (Prod.mk.inj hPair).1, ← (Prod.mk.inj hPair).2, hSuffix]
  subst hCut
  have hMem : (core, scope.suffix) ∈ cuts body := by
    simp [hCuts]
  have hBody := mem_cuts_iff.mp hMem
  refine ⟨hBody.1, hBody.2, fun other wider hOther hWider => ?_⟩
  have hPairwise := pairwise_cuts body
  have hCut := mem_cuts_iff.mpr ⟨hOther, hWider⟩
  rw [hCuts] at hPairwise hCut
  rcases List.mem_append.mp hCut with hEarlier | hLater
  · -- a longer suffix would have been found before
    have hNone := hBefore _ hEarlier
    rw [Scope.ofSuffix?_eq_some_iff.mpr rfl] at hNone
    cases hNone
  · rcases List.mem_cons.mp hLater with hSame | hAfter
    · rw [(Prod.mk.inj hSame).2]
    · have hLess :=
        (List.pairwise_cons.mp
          (List.pairwise_append.mp hPairwise).2.1).1 _ hAfter
      have hLengths :=
        congrArg List.length (hBody.2.trans hWider.symm)
      simp only [List.length_append] at hLengths hLess
      omega

/- The shortest core that is tried has the longest suffix. -/
theorem coreOf?_eq_some_iff
    {body core : List Char}
    {scope : Scope} :
    coreOf? body = some (core, scope) ↔
      IsSplit body core scope := by
  refine ⟨isSplit_of_coreOf?, fun hSplit => ?_⟩
  cases hCore : coreOf? body with
  | none =>
      have hNone :=
        List.findSome?_eq_none_iff.mp hCore _
          (mem_cuts_iff.mpr ⟨hSplit.1, hSplit.2.1⟩)
      rw [Scope.ofSuffix?_eq_some_iff.mpr rfl] at hNone
      cases hNone
  | some found =>
      have hSame := hSplit.unique (isSplit_of_coreOf? hCore)
      rw [hSame.1, hSame.2]

/- Only an empty body has no core. -/
theorem coreOf?_eq_none_iff
    {body : List Char} :
    coreOf? body = none ↔ body = [] := by
  constructor
  · intro hNone
    by_contra hSome
    have hWhole :=
      List.findSome?_eq_none_iff.mp hNone _
        (mem_cuts_iff.mpr ⟨hSome, List.append_nil body⟩)
    cases hWhole
  · rintro rfl
    rfl

end Exclusion

end SymbolAtlas

------------------------------------------------------------
-- Bodies
------------------------------------------------------------

namespace SymbolAtlas

namespace Exclusion

/- What may be dropped in front, in the order of preference. -/
def fronts : List (List Char) :=
  [slash ++ stars, slash, stars, []]

/- The text behind a front part, if it has that part. -/
def behind? (text front : List Char) : Option (List Char) :=
  if front.isPrefixOf text then some (text.drop front.length)
  else none

/- The first text that is left and not empty. -/
def body? (text : List Char) : Option (List Char) :=
  (fronts.filterMap (behind? text)).find? (!·.isEmpty)

theorem behind?_eq_some_iff
    {text front rest : List Char} :
    behind? text front = some rest ↔ text = front ++ rest := by
  unfold behind?
  rw [Option.ite_none_right_eq_some, List.isPrefixOf_iff_prefix,
    Option.some.injEq]
  constructor
  · rintro ⟨⟨more, rfl⟩, rfl⟩
    simp
  · rintro rfl
    simp

theorem behind?_append
    (text first second : List Char) :
    behind? text (first ++ second) =
      (behind? text first).bind (behind? · second) := by
  apply Option.ext
  intro rest
  simp only [Option.bind_eq_some_iff, behind?_eq_some_iff]
  simp

theorem tryDropping_eq
    (front text : List Char) :
    tryDropping front text =
      (behind? text front).toList ++ [text] := by
  unfold tryDropping behind?
  split <;> rfl

/- The texts that the search goes through are those left. -/
theorem flatMap_tryDropping
    (text : List Char) :
    (tryDropping slash text).flatMap (tryDropping stars) =
      fronts.filterMap (behind? text) := by
  have hWhole : behind? text [] = some text :=
    behind?_eq_some_iff.mpr rfl
  have hStars :
      tryDropping stars =
        fun rest => (behind? rest stars).toList ++ [rest] :=
    funext (tryDropping_eq stars)
  rw [tryDropping_eq, hStars]
  simp only [fronts, List.filterMap_cons, behind?_append, hWhole]
  cases behind? text slash with
  | none =>
      cases hText : behind? text stars <;> simp [hText]
  | some rest =>
      cases hRest : behind? rest stars <;>
        cases hText : behind? text stars <;> simp [hRest, hText]

/- The search below each text is the search through all. -/
theorem findSome?_flatMap
    {α β γ : Type}
    (items : List α)
    (f : α → List β)
    (g : β → Option γ) :
    (items.flatMap f).findSome? g =
      items.findSome? fun item => (f item).findSome? g := by
  induction items with
  | nil => rfl
  | cons item rest ih =>
      rw [List.flatMap_cons, List.findSome?_append, ih,
        List.findSome?_cons]
      cases (f item).findSome? g <;> rfl

theorem findSome?_coreOf?
    (bodies : List (List Char)) :
    bodies.findSome? coreOf? =
      (bodies.find? (!·.isEmpty)).bind coreOf? := by
  induction bodies with
  | nil => rfl
  | cons body rest ih =>
      rw [List.findSome?_cons, List.find?_cons]
      cases body with
      | nil => exact ih
      | cons c others =>
          cases hCore : coreOf? (c :: others) with
          | none => cases coreOf?_eq_none_iff.mp hCore
          | some found => exact hCore.symm

/- The search ends at the core of the first text left. -/
theorem split?_eq
    (text : List Char) :
    split? text = (body? text).bind coreOf? := by
  have hSearch :
      split? text =
        ((tryDropping slash text).flatMap
          (tryDropping stars)).findSome? coreOf? := by
    rw [findSome?_flatMap]
    rfl
  rw [hSearch, flatMap_tryDropping, findSome?_coreOf?]
  rfl

/- Something is left of every text that is not empty. -/
theorem body?_eq_none_iff
    {text : List Char} :
    body? text = none ↔ text = [] := by
  constructor
  · intro hNone
    have hWhole : behind? text [] = some text :=
      behind?_eq_some_iff.mpr rfl
    have hMem : text ∈ fronts.filterMap (behind? text) :=
      List.mem_filterMap.mpr ⟨[], by decide, hWhole⟩
    simpa using List.find?_eq_none.mp hNone text hMem
  · rintro rfl
    rfl

/- The core and the scope that a mask text falls into. -/
def Splits (text core : List Char) (scope : Scope) : Prop :=
  ∃ body, body? text = some body ∧ IsSplit body core scope

theorem split?_eq_some_iff
    {text core : List Char}
    {scope : Scope} :
    split? text = some (core, scope) ↔ Splits text core scope := by
  rw [split?_eq, Option.bind_eq_some_iff]
  simp only [coreOf?_eq_some_iff]
  rfl

/- Only an empty text has no split. -/
theorem split?_eq_none_iff
    {text : List Char} :
    split? text = none ↔ text = [] := by
  rw [split?_eq, ← body?_eq_none_iff]
  cases hBody : body? text with
  | none => simp
  | some body =>
      have hSome := List.find?_some hBody
      rw [Option.bind_some, coreOf?_eq_none_iff]
      simp_all

/- A core, a wide scope and fronts that leave nothing behind. -/
example :
    split? ['*', '*', '/', 'a', '/', '/', '*', '*'] =
        some (['a', '/'], .subtree) ∧
      split? ['/', '*', '*', '/'] = some (['*', '*'], .directories) ∧
      split? ['/'] = some (['/'], .everything) := by
  decide

end Exclusion

end SymbolAtlas

------------------------------------------------------------
-- Exclusions
------------------------------------------------------------

namespace SymbolAtlas

/- A mask that is rejected is named in the error. -/
theorem Mask.eq_of_compile_eq_error
    {text : String}
    {error : Error}
    (hError : compile text = .error error) :
    error = .invalidMask text := by
  unfold compile at hError
  split at hError
  · cases hError
  · exact (Except.error.inj hError).symm

namespace Exclusion

open Mask (slashed)

theorem compile_of_split?_eq_none
    {text : String}
    (hNone : split? (slashed text) = none) :
    compile text = .error (.invalidMask text) := by
  unfold slashed at hNone
  unfold compile
  rw [hNone]

theorem compile_of_splits
    {text : String}
    {core : List Char}
    {scope : Scope}
    (hSplits : Splits (slashed text) core scope) :
    compile text =
      (Mask.compile (String.ofList core)).map (⟨·, scope⟩) := by
  have hSplit := split?_eq_some_iff.mpr hSplits
  unfold slashed at hSplit
  unfold compile
  rw [hSplit]
  dsimp only
  cases Mask.compile (String.ofList core) <;> rfl

theorem splits_unique
    {text core other : List Char}
    {scope wider : Scope}
    (hSplits : Splits text core scope)
    (hOther : Splits text other wider) :
    core = other ∧ scope = wider := by
  rw [← split?_eq_some_iff] at hSplits hOther
  exact Prod.mk.inj (Option.some.inj (hSplits.symm.trans hOther))

/- An entry is left out where the scope and the core meet it. -/
theorem keeps_eq_false_iff
    {exclusion : Exclusion}
    {isDirectory : Bool}
    {path : String} :
    exclusion.keeps isDirectory path = false ↔
      exclusion.core.accepts path = true ∧
        (exclusion.scope.suffix = [] ∨ isDirectory = true) := by
  unfold keeps
  cases exclusion.core.accepts path <;> cases isDirectory <;>
    simp

theorem filtersResults_iff
    {scope : Scope} :
    scope.filtersResults = true ↔
      scope.suffix = ['/', '*', '*'] ∨ scope.suffix = [] := by
  cases scope <;> decide

theorem exists_splits
    {text : String}
    (hText : text ≠ "") :
    ∃ core scope, Splits (slashed text) core scope := by
  cases hSplit : split? (slashed text) with
  | none =>
      rw [split?_eq_none_iff] at hSplit
      simp [slashed, Path.withSlashes] at hSplit
      exact absurd hSplit hText
  | some found =>
      exact ⟨found.1, found.2, split?_eq_some_iff.mp hSplit⟩

/-
  A mask that is not empty has one split into a core and a
  scope. It is rejected if it is empty or its core is; otherwise
  it leaves out what the core accepts, only directories unless
  the suffix is empty, and results with the suffixes `/**` and
  none.
-/
theorem compile_takes_longest_suffix
    (text : String) :
    (text ≠ "" ↔
        ∃! split : List Char × Scope,
          Splits (slashed text) split.1 split.2) ∧
      ((∃ mask, compile text = .error (.invalidMask mask)) ↔
        text = "" ∨
          ∃ core scope,
            Splits (slashed text) core scope ∧
              Mask.compile (String.ofList core) =
                .error (.invalidMask (String.ofList core))) ∧
      ∀ core scope mask,
        Splits (slashed text) core scope →
        Mask.compile (String.ofList core) = .ok mask →
          ∃ exclusion,
            compile text = .ok exclusion ∧
              (∀ isDirectory path,
                exclusion.keeps isDirectory path = false ↔
                  mask.accepts path = true ∧
                    (scope.suffix = [] ∨ isDirectory = true)) ∧
              (exclusion.scope.filtersResults = true ↔
                scope.suffix = ['/', '*', '*'] ∨
                  scope.suffix = []) := by
  have hEmpty : split? (slashed text) = none ↔ text = "" := by
    rw [split?_eq_none_iff]
    simp [slashed, Path.withSlashes]
  refine ⟨⟨fun hText => ?_, ?_⟩, ⟨?_, ?_⟩, ?_⟩
  · rcases exists_splits hText with ⟨core, scope, hSplits⟩
    refine ⟨(core, scope), hSplits, fun other hOther => ?_⟩
    have hSame := splits_unique hOther hSplits
    exact Prod.ext hSame.1 hSame.2
  · rintro ⟨split, hSplits, -⟩ hText
    rw [← hEmpty, split?_eq_some_iff.mpr hSplits] at hText
    cases hText
  · rintro ⟨mask, hError⟩
    by_cases hText : text = ""
    · exact Or.inl hText
    · rcases exists_splits hText with ⟨core, scope, hSplits⟩
      rw [compile_of_splits hSplits] at hError
      refine Or.inr ⟨core, scope, hSplits, ?_⟩
      cases hCore : Mask.compile (String.ofList core) with
      | error error => rw [Mask.eq_of_compile_eq_error hCore]
      | ok found =>
          rw [hCore] at hError
          cases hError
  · rintro (hText | ⟨core, scope, hSplits, hCore⟩)
    · exact ⟨text, compile_of_split?_eq_none (hEmpty.mpr hText)⟩
    · refine ⟨String.ofList core, ?_⟩
      rw [compile_of_splits hSplits, hCore]
      rfl
  · intro core scope mask hSplits hMask
    refine ⟨⟨mask, scope⟩, ?_, fun isDirectory path => ?_, ?_⟩
    · rw [compile_of_splits hSplits, hMask]
      rfl
    · exact keeps_eq_false_iff
    · exact filtersResults_iff

/- What is in the directories of a name, anywhere. -/
theorem compile_contents :
    Splits (slashed "\\**/a/*") ['a'] .contents ∧
      ∃ exclusion,
        compile "\\**/a/*" = .ok exclusion ∧
          exclusion.keeps true "x/a" = false ∧
          exclusion.keeps false "x/a" = true ∧
          exclusion.scope.filtersResults = false := by
  have hSplits : Splits (slashed "\\**/a/*") ['a'] .contents := by
    rw [← split?_eq_some_iff]
    decide
  have hMask :
      Mask.compile (String.ofList ['a']) =
        .ok ⟨"a", .floating [.literal 'a']⟩ := by
    apply Mask.compile_of_pattern?
    decide
  refine ⟨hSplits, ?_⟩
  rcases (compile_takes_longest_suffix _).2.2 _ _ _ hSplits hMask
    with ⟨exclusion, hCompile, hKeeps, hFilters⟩
  refine ⟨exclusion, hCompile, ?_, ?_, ?_⟩
  · rw [hKeeps]
    decide
  · rw [← Bool.not_eq_false, hKeeps]
    decide
  · rw [← Bool.not_eq_true, hFilters]
    decide

end Exclusion

end SymbolAtlas
