import SymbolAtlas.Proofs.Source.TopLevel

/-
  Names that are relative to the space they stand in.

  The word that begins a space also begins such a name. A reader
  takes the sign behind it for the end of a space without a name,
  so a relative name is read like the beginning of such a space.
  It does no harm exactly where the code is in that space anyhow;
  elsewhere later declarations lose their space, or are not at
  the top level any more.

  Key definitions:
    * `Declarations.relativeName`, `Declarations.EndsInSign`
    * `Declarations.readerBehind`
  Key theorems:
    * `Declarations.Reader.readAll_relativeName`
    * `Declarations.Reader.exists_telling`
    * `Declarations.relative_name_begins_space`
-/

------------------------------------------------------------
-- Between Two Declarations
------------------------------------------------------------

namespace SymbolAtlas

namespace Declarations

/- The tokens of a name that is relative to its space. -/
def relativeName (keyword name : String) : List Token :=
  [⟨.spaceWord, keyword⟩, ⟨.other, "\\"⟩, ⟨.identifier, name⟩]

/- The beginning of a space without a name and braces. -/
def namelessSpace (keyword : String) : List Token :=
  [⟨.spaceWord, keyword⟩, ⟨.other, ";"⟩]

/- The last solid token, if any, leaves no declaration open. -/
def EndsInSign (tokens : List Token) : Prop :=
  ∀ token,
    (tokens.filter Token.isSolid).getLast? = some token →
      token.kind = .other ∨ token.kind = .braceOpen ∨
        token.kind = .braceClose

/- What a reader knows behind the tokens. -/
def readerBehind (tokens : List Token) : Reader :=
  ({} : Reader).readAll tokens

theorem ofTokens_append
    (first second : List Token) :
    ofTokens (first ++ second) =
      ((readerBehind first).readAll second).symbols :=
  congrArg Reader.symbols (Reader.readAll_append {} first second)

namespace Reader

/- A sign or a brace ends whatever was waited for. -/
theorem expected_settle
    (r : Reader)
    (kind : TokenKind) :
    (r.settle kind).expected = none := by
  unfold settle
  split
  · rfl
  · split <;> rfl
  · assumption

theorem expected_nest
    (r : Reader)
    (kind : TokenKind) :
    (r.nest kind).expected = r.expected := by
  cases kind <;> rfl

end Reader

theorem expected_readerBehind
    {tokens : List Token}
    (hEnd : EndsInSign tokens) :
    (readerBehind tokens).expected = none := by
  unfold readerBehind
  rw [← Reader.readAll_filter_isSolid]
  rcases List.eq_nil_or_concat (tokens.filter Token.isSolid) with
    hNone | ⟨front, last, hSolid⟩
  · rw [hNone]
    rfl
  · have hLast :=
      hEnd last (by rw [hSolid, List.concat_eq_append]; simp)
    have hRead (r : Reader) : (r.read last).expected = none := by
      unfold Reader.read
      rcases hLast with hKind | hKind | hKind
      · simp only [hKind, Reader.expected_nest,
          Reader.expected_settle]
      · simp only [hKind, Reader.expected_nest,
          Reader.expected_settle]
      · simp only [hKind, Reader.expected_nest,
          Reader.expected_settle]
    rw [hSolid, List.concat_eq_append, Reader.readAll_append]
    exact hRead _

end Declarations

end SymbolAtlas

------------------------------------------------------------
-- Reading a Relative Name
------------------------------------------------------------

namespace SymbolAtlas

namespace Declarations

namespace Reader

variable {r : Reader}

/- The reader is in the space that has no name and no braces. -/
def leaveSpace (r : Reader) : Reader :=
  { r with space := "", topLevel := 0, name := "" }

theorem readAll_relativeName
    (hExpected : r.expected = none)
    (keyword name : String) :
    r.readAll (relativeName keyword name) = r.leaveSpace := by
  simp [relativeName, leaveSpace, read, settle, nest, hExpected]

theorem readAll_namelessSpace
    (hExpected : r.expected = none)
    (keyword : String) :
    r.readAll (namelessSpace keyword) = r.leaveSpace := by
  simp [namelessSpace, leaveSpace, read, settle, nest, hExpected]

/- A name that nobody waits for is never looked at. -/
theorem symbols_readAll_name
    (hExpected : r.expected = none)
    (name : String)
    (tokens : List Token) :
    ({ r with name := name }.readAll tokens).symbols =
      (r.readAll tokens).symbols := by
  induction tokens generalizing r with
  | nil => rfl
  | cons token rest ih =>
      have hSkip :
          ∀ q : Reader,
            q.expected = none →
            r.read token = q →
            { r with name := name }.read token =
              { q with name := name } →
            (({ r with name := name }.read token).readAll
              rest).symbols =
                ((r.read token).readAll rest).symbols := by
        intro q hNone hRead hReadToo
        rw [hReadToo, hRead]
        exact ih hNone
      rw [readAll_cons, readAll_cons]
      cases hKind : token.kind with
      | comment =>
          exact hSkip r hExpected (by simp [read, hKind])
            (by simp [read, hKind])
      | blank =>
          exact hSkip r hExpected (by simp [read, hKind])
            (by simp [read, hKind])
      | identifier =>
          exact hSkip r hExpected (by simp [read, hKind, hExpected])
            (by simp [read, hKind, hExpected])
      | spaceWord => simp [read, hKind]
      | declarationWord => simp [read, hKind]
      | braceOpen =>
          exact hSkip { r with level := r.level + 1 } hExpected
            (by simp [read, hKind, settle, hExpected, nest])
            (by simp [read, hKind, settle, hExpected, nest])
      | braceClose =>
          exact hSkip { r with level := r.level - 1 } hExpected
            (by simp [read, hKind, settle, hExpected, nest])
            (by simp [read, hKind, settle, hExpected, nest])
      | other =>
          exact hSkip r hExpected
            (by simp [read, hKind, settle, hExpected, nest])
            (by simp [read, hKind, settle, hExpected, nest])

/- The space changes only where one is begun. -/
theorem space_read
    (r : Reader)
    {token : Token}
    (hExpected : r.expected ≠ some .space)
    (hWord : token.kind ≠ .spaceWord) :
    (r.read token).space = r.space ∧
    (r.read token).topLevel = r.topLevel ∧
    (r.read token).expected ≠ some .space := by
  have hSettle (kind : TokenKind) :
      ((r.settle kind).nest kind).space = r.space ∧
      ((r.settle kind).nest kind).topLevel = r.topLevel ∧
      ((r.settle kind).nest kind).expected ≠ some .space := by
    have hNest (q : Reader) :
        (q.nest kind).space = q.space ∧
          (q.nest kind).topLevel = q.topLevel := by
      cases kind <;> exact ⟨rfl, rfl⟩
    rw [(hNest _).1, (hNest _).2, expected_nest, expected_settle]
    refine ⟨?_, ?_, by simp⟩
    · unfold settle
      split
      · next hSpace => exact absurd hSpace hExpected
      · split <;> rfl
      · rfl
    · unfold settle
      split
      · next hSpace => exact absurd hSpace hExpected
      · split <;> rfl
      · rfl
  unfold read
  cases hKind : token.kind with
  | comment => exact ⟨rfl, rfl, hExpected⟩
  | blank => exact ⟨rfl, rfl, hExpected⟩
  | identifier =>
      dsimp only
      split
      · exact ⟨rfl, rfl, hExpected⟩
      · exact ⟨rfl, rfl, hExpected⟩
  | spaceWord => exact absurd hKind hWord
  | declarationWord => exact ⟨rfl, rfl, by simp⟩
  | braceOpen => exact hSettle .braceOpen
  | braceClose => exact hSettle .braceClose
  | other => exact hSettle .other

theorem space_readAll
    (hExpected : r.expected ≠ some .space)
    {tokens : List Token}
    (hWords : ∀ token ∈ tokens, token.kind ≠ .spaceWord) :
    (r.readAll tokens).space = r.space ∧
    (r.readAll tokens).topLevel = r.topLevel := by
  induction tokens generalizing r with
  | nil => exact ⟨rfl, rfl⟩
  | cons token rest ih =>
      rw [List.forall_mem_cons] at hWords
      rcases r.space_read hExpected hWords.1 with
        ⟨hSpace, hTop, hNext⟩
      rcases ih hNext hWords.2 with ⟨hSpaceToo, hTopToo⟩
      rw [readAll_cons, hSpaceToo, hTopToo]
      exact ⟨hSpace, hTop⟩

end Reader

end Declarations

end SymbolAtlas

------------------------------------------------------------
-- Telling Two Spaces Apart
------------------------------------------------------------

namespace SymbolAtlas

namespace Declarations

namespace Reader

variable {r : Reader}

/- Braces that lead from one level to another. -/
def bracesTo (start goal : Int) : List Token :=
  if start ≤ goal then
    List.replicate (goal - start).toNat ⟨.braceOpen, "\x7b"⟩
  else
    List.replicate (start - goal).toNat ⟨.braceClose, "\x7d"⟩

/- A token that only changes the level, several times. -/
theorem readAll_replicate
    {token : Token}
    {step : Int}
    (hRead :
      ∀ q : Reader, q.expected = none →
        q.read token = { q with level := q.level + step })
    (hExpected : r.expected = none)
    (n : Nat) :
    r.readAll (List.replicate n token) =
      { r with level := r.level + n * step } := by
  induction n generalizing r with
  | zero => simp
  | succ n ih =>
      have hRest :=
        ih (r := { r with level := r.level + step }) hExpected
      rw [List.replicate_succ, readAll_cons, hRead r hExpected,
        hRest]
      simp only [mk.injEq, true_and, and_true]
      rw [Int.natCast_succ, Int.add_mul, Int.one_mul]
      omega

theorem readAll_bracesTo
    (hExpected : r.expected = none)
    (goal : Int) :
    r.readAll (bracesTo r.level goal) =
      { r with level := goal } := by
  have hOpen (q : Reader) (hNone : q.expected = none) :
      q.read ⟨.braceOpen, "\x7b"⟩ =
        { q with level := q.level + 1 } := by
    simp [read, settle, nest, hNone]
  have hClose (q : Reader) (hNone : q.expected = none) :
      q.read ⟨.braceClose, "\x7d"⟩ =
        { q with level := q.level + -1 } := by
    simp [read, settle, nest, hNone, Int.sub_eq_add_neg]
  unfold bracesTo
  split
  · rw [readAll_replicate hOpen hExpected]
    simp only [mk.injEq, true_and, and_true]
    omega
  · rw [readAll_replicate hClose hExpected]
    simp only [mk.injEq, true_and, and_true]
    omega

/- The tokens of a name that is declared. -/
def declaring (name : String) : List Token :=
  [⟨.declarationWord, "class"⟩, ⟨.identifier, name⟩, ⟨.other, ";"⟩]

theorem symbols_declaring
    (r : Reader)
    {name : String}
    (hName : name ≠ "") :
    (r.readAll (declaring name)).symbols =
      if r.level = r.topLevel then r.declare (r.space ++ name)
      else r.symbols := by
  by_cases hLevel : r.level = r.topLevel
  · simp [declaring, read, settle, nest, hName, hLevel, declare]
  · simp [declaring, read, settle, nest, hLevel]

/- A text that is longer than some others. -/
theorem exists_longer
    (texts : List String) :
    ∃ name : String,
      ∀ text ∈ texts, text.length < name.length := by
  induction texts with
  | nil => exact ⟨"", by simp⟩
  | cons first rest ih =>
      rcases ih with ⟨name, hName⟩
      refine ⟨first ++ name ++ "X", ?_⟩
      have hOne : "X".length = 1 := by decide
      intro text hText
      rw [String.length_append, String.length_append]
      rcases List.mem_cons.mp hText with rfl | hRest
      · omega
      · have hLess := hName text hRest
        omega

/-
  A reader that is in another space, or at another top level,
  finds another name some time.
-/
theorem exists_telling
    (hExpected : r.expected = none)
    (hSpace : r.space ≠ "" ∨ r.topLevel ≠ 0) :
    ∃ tokens,
      (r.leaveSpace.readAll tokens).symbols ≠
        (r.readAll tokens).symbols := by
  rcases exists_longer ("" :: r.symbols) with ⟨name, hLonger⟩
  rw [List.forall_mem_cons] at hLonger
  have hName : name ≠ "" := by
    rintro rfl
    exact absurd hLonger.1 (Nat.lt_irrefl _)
  have hNew (space : String) : space ++ name ∉ r.symbols := by
    intro hOld
    have hLess := hLonger.2 _ hOld
    rw [String.length_append] at hLess
    omega
  refine ⟨bracesTo r.level r.topLevel ++ declaring name, ?_⟩
  have hLeft :
      r.leaveSpace.readAll (bracesTo r.level r.topLevel) =
        { r.leaveSpace with level := r.topLevel } :=
    readAll_bracesTo (r := r.leaveSpace) hExpected r.topLevel
  rw [readAll_append, readAll_append, hLeft,
    readAll_bracesTo hExpected, symbols_declaring _ hName,
    symbols_declaring _ hName]
  by_cases hTop : r.topLevel = 0
  · -- Both find a name, with another space in front of it.
    have hNamed : r.space ≠ "" := hSpace.resolve_right (· hTop)
    simp only [leaveSpace, hTop, if_true, declare,
      String.empty_append, List.contains_eq_mem, hNew,
      decide_false, Bool.false_eq_true, if_false]
    intro hSame
    have hPlain : name ∉ r.symbols := by simpa using hNew ""
    simp only [hPlain, decide_false, Bool.false_eq_true, if_false,
      List.append_cancel_left_eq, List.cons.injEq,
      and_true] at hSame
    have hLength := congrArg String.length hSame
    rw [String.length_append] at hLength
    exact hNamed (by
      rw [← String.length_eq_zero_iff]
      omega)
  · -- Only the reader in its own space finds a name.
    simp [leaveSpace, hTop, declare, hNew]

end Reader

end Declarations

end SymbolAtlas

------------------------------------------------------------
-- Relative Names
------------------------------------------------------------

namespace SymbolAtlas

namespace Declarations

/-
  Where no declaration is open, a relative name is read as the
  beginning of the space that has no name and no braces. So it
  changes nothing, whatever follows, exactly if the code is in
  that space already. The space and the level of what is declared
  change at no other tokens than those that begin a space.
-/
theorem relative_name_begins_space
    {front : List Token}
    (hFront : EndsInSign front)
    (keyword name : String) :
    (∀ rest,
      ofTokens (front ++ relativeName keyword name ++ rest) =
        ofTokens (front ++ namelessSpace keyword ++ rest)) ∧
    ((∀ rest,
      ofTokens (front ++ relativeName keyword name ++ rest) =
        ofTokens (front ++ rest)) ↔
      (readerBehind front).space = "" ∧
      (readerBehind front).topLevel = 0) ∧
    ∀ rest,
      (∀ token ∈ rest, token.kind ≠ .spaceWord) →
        (readerBehind (front ++ rest)).space =
          (readerBehind front).space ∧
        (readerBehind (front ++ rest)).topLevel =
          (readerBehind front).topLevel := by
  have hExpected := expected_readerBehind hFront
  have hName (rest : List Token) :
      ofTokens (front ++ relativeName keyword name ++ rest) =
        ((readerBehind front).leaveSpace.readAll rest).symbols := by
    rw [List.append_assoc, ofTokens_append, Reader.readAll_append,
      Reader.readAll_relativeName hExpected]
  refine ⟨fun rest => ?_, ⟨fun hSame => ?_, ?_⟩, fun rest hWords => ?_⟩
  · rw [hName, List.append_assoc, ofTokens_append,
      Reader.readAll_append,
      Reader.readAll_namelessSpace hExpected]
  · apply Decidable.byContradiction
    intro hOther
    rw [Decidable.not_and_iff_not_or_not] at hOther
    rcases Reader.exists_telling hExpected hOther with
      ⟨rest, hRest⟩
    rw [← hName, hSame, ofTokens_append] at hRest
    exact hRest rfl
  · rintro ⟨hSpace, hTop⟩ rest
    have hLeft :
        (readerBehind front).leaveSpace =
          { readerBehind front with name := "" } := by
      unfold Reader.leaveSpace
      rw [← hSpace, ← hTop]
    rw [hName, ofTokens_append, hLeft]
    exact Reader.symbols_readAll_name hExpected "" rest
  · unfold readerBehind
    rw [Reader.readAll_append]
    refine Reader.space_readAll ?_ hWords
    rw [← readerBehind, hExpected]
    simp

/- The beginning of a space with a name. -/
def namedSpace : List Token :=
  [⟨.spaceWord, "namespace"⟩, ⟨.identifier, "App"⟩, ⟨.other, ";"⟩]

/- The beginning of one with braces. -/
def bracedSpace : List Token :=
  [⟨.spaceWord, "namespace"⟩, ⟨.identifier, "App"⟩,
    ⟨.braceOpen, "\x7b"⟩]

/-
  A class behind a relative name loses its space, and between
  the braces of a space it is not seen at all.
-/
theorem class_loses_space :
    EndsInSign namedSpace ∧
    (readerBehind namedSpace).space = "App\\" ∧
    ofTokens (namedSpace ++ Reader.declaring "A") =
      ["App\\A"] ∧
    ofTokens (namedSpace ++ relativeName "namespace" "f" ++
      Reader.declaring "A") = ["A"] ∧
    EndsInSign bracedSpace ∧
    ofTokens (bracedSpace ++ Reader.declaring "A") =
      ["App\\A"] ∧
    ofTokens (bracedSpace ++ relativeName "namespace" "f" ++
      Reader.declaring "A") = [] := by
  have hEnds : EndsInSign namedSpace := by
    intro token hLast
    cases hLast
    exact .inl rfl
  have hBraces : EndsInSign bracedSpace := by
    intro token hLast
    cases hLast
    exact .inr (.inl rfl)
  refine ⟨hEnds, by decide, by decide, ?_, hBraces, by decide, ?_⟩
  · rw [(relative_name_begins_space hEnds "namespace" "f").1]
    decide
  · rw [(relative_name_begins_space hBraces "namespace" "f").1]
    decide

end Declarations

end SymbolAtlas
