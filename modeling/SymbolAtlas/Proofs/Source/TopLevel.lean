import SymbolAtlas.Proofs.Source.Outline

/-
  The names that are read from the tokens of an outline.

  Between two items a reader waits for nothing and stands at the
  top level. A statement leaves it there, a declaration adds its
  name, and so the names that are read are those of the outline,
  with their spaces, however many comments and blanks stand
  between its tokens.

  Key definitions:
    * `Declarations.Reader.readAll`
    * `Declarations.Reader.Passes`, `Declarations.Reader.Awaits`
  Key theorems:
    * `Declarations.Reader.readAll_within`
    * `Declarations.Reader.Awaits.readAll_items`
    * `Outline.ofTokens_eq_names`
-/

------------------------------------------------------------
-- Reading Several Tokens
------------------------------------------------------------

namespace SymbolAtlas

namespace Declarations

namespace Reader

/- Read one token after the other. -/
def readAll (r : Reader) (tokens : List Token) : Reader :=
  tokens.foldl read r

@[simp] theorem readAll_nil
    (r : Reader) :
    r.readAll [] = r :=
  rfl

@[simp] theorem readAll_cons
    (r : Reader)
    (token : Token)
    (rest : List Token) :
    r.readAll (token :: rest) = (r.read token).readAll rest :=
  rfl

@[simp] theorem readAll_append
    (r : Reader)
    (first second : List Token) :
    r.readAll (first ++ second) =
      (r.readAll first).readAll second :=
  List.foldl_append

/- Comments and blanks are passed over. -/
theorem readAll_filter_isSolid
    (r : Reader)
    (tokens : List Token) :
    r.readAll (tokens.filter Token.isSolid) =
      r.readAll tokens := by
  induction tokens generalizing r with
  | nil => rfl
  | cons token rest ih =>
      cases hSolid : token.isSolid with
      | true =>
          rw [List.filter_cons_of_pos hSolid]
          simp only [readAll_cons, ih]
      | false =>
          have hRead : r.read token = r := by
            unfold Token.isSolid at hSolid
            unfold read
            cases hKind : token.kind <;> simp [hKind] at hSolid ⊢
          rw [List.filter_cons_of_neg (by simp [hSolid]), ih]
          simp only [readAll_cons, hRead]

variable {r q : Reader}

/- No name is waited for, or none has come yet. -/
def IsIdle (r : Reader) : Prop :=
  r.expected = none ∨ r.expected = some .declaration ∧ r.name = ""

/-
  The second reader waits for nothing and stands where the first
  one stood.
-/
structure Passes (r q : Reader) : Prop where
  expected : q.expected = none
  space : q.space = r.space
  level : q.level = r.level
  topLevel : q.topLevel = r.topLevel
  symbols : q.symbols = r.symbols

theorem Passes.refl
    (hExpected : r.expected = none) :
    Passes r r :=
  ⟨hExpected, rfl, rfl, rfl, rfl⟩

theorem Passes.trans
    {p : Reader}
    (hFirst : Passes r q)
    (hSecond : Passes q p) :
    Passes r p where
  expected := hSecond.expected
  space := hSecond.space.trans hFirst.space
  level := hSecond.level.trans hFirst.level
  topLevel := hSecond.topLevel.trans hFirst.topLevel
  symbols := hSecond.symbols.trans hFirst.symbols

theorem IsIdle.settle_eq
    (hIdle : r.IsIdle)
    (kind : TokenKind) :
    r.settle kind = { r with expected := none } := by
  unfold settle
  rcases hIdle with hNone | ⟨hWord, hName⟩
  · simp only [hNone]
    rw [← hNone]
  · simp [hWord, hName]

/- Below the top level nothing is declared. -/
theorem settle_of_below
    (hBelow : r.topLevel < r.level)
    (hExpected : r.expected ≠ some .space)
    (kind : TokenKind) :
    r.settle kind = { r with expected := none } := by
  have hLevel : (r.level == r.topLevel) = false := by
    rw [beq_eq_false_iff_ne]
    omega
  unfold settle
  cases hWord : r.expected with
  | none =>
      dsimp only
      rw [← hWord]
  | some word =>
      cases word with
      | space => exact absurd hWord hExpected
      | declaration => simp [hLevel]

end Reader

end Declarations

end SymbolAtlas

------------------------------------------------------------
-- Reading Statements
------------------------------------------------------------

namespace SymbolAtlas

namespace Declarations

namespace Reader

open Outline

variable {r q : Reader}

/-
  Between the braces of a block the level stays above the top
  level, so nothing is declared there. The depth counts from the
  brace that opened the block.
-/
theorem readAll_within
    {tokens : List Token}
    {depth last : Nat}
    (hDepth : depthBehind depth tokens = some last)
    (hSpaceless : ∀ token ∈ tokens, token.kind ≠ .spaceWord)
    (hExpected : r.expected ≠ some .space)
    (hLevel : r.topLevel + 1 + depth ≤ r.level) :
    (r.readAll tokens).expected ≠ some .space ∧
    (r.readAll tokens).space = r.space ∧
    (r.readAll tokens).level + depth = r.level + last ∧
    (r.readAll tokens).topLevel = r.topLevel ∧
    (r.readAll tokens).symbols = r.symbols := by
  induction tokens generalizing r depth with
  | nil =>
      cases hDepth
      exact ⟨hExpected, rfl, rfl, rfl, rfl⟩
  | cons token rest ih =>
      have hRest :
          ∀ other ∈ rest, other.kind ≠ .spaceWord :=
        fun other hOther =>
          hSpaceless other (List.mem_cons_of_mem _ hOther)
      have hSettle :
          ∀ kind, r.settle kind = { r with expected := none } :=
        settle_of_below (by omega) hExpected
      unfold depthBehind at hDepth
      rw [readAll_cons]
      unfold read
      cases hKind : token.kind with
      | spaceWord =>
          exact absurd hKind (hSpaceless token List.mem_cons_self)
      | comment | blank =>
          simp only [hKind] at hDepth
          exact ih hDepth hRest hExpected hLevel
      | declarationWord =>
          simp only [hKind] at hDepth ⊢
          exact ih hDepth hRest (by simp) hLevel
      | identifier =>
          simp only [hKind] at hDepth ⊢
          split
          · exact ih hDepth hRest hExpected hLevel
          · exact ih hDepth hRest hExpected hLevel
      | other =>
          simp only [hKind, hSettle, nest] at hDepth ⊢
          exact ih hDepth hRest (by simp) hLevel
      | braceOpen =>
          simp only [hKind, hSettle, nest] at hDepth ⊢
          rcases ih (r := { r with
              level := r.level + 1
              expected := none }) hDepth hRest (by simp)
              (by simp only; omega) with
            ⟨hNext, hSpace, hAfter, hTop, hSymbols⟩
          refine ⟨hNext, hSpace, ?_, hTop, hSymbols⟩
          simp only at hAfter
          omega
      | braceClose =>
          simp only [hKind] at hDepth
          cases depth with
          | zero => cases hDepth
          | succ outer =>
              simp only [hSettle, nest] at hDepth ⊢
              rcases ih (r := { r with
                  level := r.level - 1
                  expected := none }) hDepth hRest (by simp)
                  (by simp only; omega) with
                ⟨hNext, hSpace, hAfter, hTop, hSymbols⟩
              refine ⟨hNext, hSpace, ?_, hTop, hSymbols⟩
              simp only at hAfter
              omega

/- Braces and what they hold are passed over. -/
theorem IsIdle.readAll_braces
    (hIdle : r.IsIdle)
    (hLevel : r.topLevel ≤ r.level)
    (b : Braces) :
    Passes r (r.readAll b.tokens) := by
  let inner : Reader :=
    { r with expected := none, level := r.level + 1 }
  have hOpen :
      r.read ⟨.braceOpen, b.opening⟩ = inner := by
    change (r.settle .braceOpen).nest .braceOpen = inner
    rw [hIdle.settle_eq]
    rfl
  have hInner : inner.topLevel + 1 + (0 : Nat) ≤ inner.level := by
    change r.topLevel + 1 + (0 : Nat) ≤ r.level + 1
    omega
  rcases readAll_within b.block.balanced b.block.spaceless
      (r := inner) (by simp [inner]) hInner with
    ⟨hExpected, hSpace, hAfter, hTop, hSymbols⟩
  have hClose :
      (inner.readAll b.block.tokens).settle .braceClose =
        { inner.readAll b.block.tokens with expected := none } :=
    settle_of_below (by omega) hExpected _
  have hTokens :
      r.readAll b.tokens =
        { inner.readAll b.block.tokens with
          expected := none
          level := (inner.readAll b.block.tokens).level - 1 } := by
    unfold Braces.tokens
    rw [readAll_cons, hOpen, readAll_append, readAll_cons,
      readAll_nil]
    change ((inner.readAll b.block.tokens).settle
      .braceClose).nest .braceClose = _
    rw [hClose]
    rfl
  have hSame : inner.level = r.level + 1 := rfl
  rw [hTokens]
  refine ⟨rfl, hSpace, ?_, hTop, hSymbols⟩
  dsimp only
  omega

theorem IsIdle.readAll_ending
    (hIdle : r.IsIdle)
    (hLevel : r.topLevel ≤ r.level)
    (e : Ending) :
    Passes r (r.readAll e.tokens) := by
  cases e with
  | sign text =>
      have hRead :
          r.readAll (Ending.sign text).tokens =
            { r with expected := none } :=
        hIdle.settle_eq .other
      rw [hRead]
      exact ⟨rfl, rfl, rfl, rfl, rfl⟩
  | braces b => exact hIdle.readAll_braces hLevel b

/- A keyword without a name declares nothing. -/
theorem readAll_close
    (hExpected : r.expected = none)
    (hLevel : r.topLevel ≤ r.level)
    (c : Close) :
    Passes r (r.readAll c.tokens) := by
  rcases c with ⟨keyword, ending⟩
  cases keyword with
  | none =>
      have hIdle : r.IsIdle := Or.inl hExpected
      exact hIdle.readAll_ending hLevel ending
  | some text =>
      let waiting : Reader :=
        { r with expected := some .declaration, name := "" }
      have hIdle : waiting.IsIdle := Or.inr ⟨rfl, rfl⟩
      have hAfter := hIdle.readAll_ending hLevel ending
      exact ⟨hAfter.expected, hAfter.space, hAfter.level,
        hAfter.topLevel, hAfter.symbols⟩

/- A word that nobody waits for is passed over. -/
theorem read_word
    (hExpected : r.expected = none)
    (text : String) :
    r.read ⟨.identifier, text⟩ = r := by
  unfold read
  simp [hExpected]

theorem readAll_pieces
    (hExpected : r.expected = none)
    (hLevel : r.topLevel ≤ r.level)
    (pieces : List Piece) :
    Passes r (r.readAll (pieces.flatMap Piece.tokens)) := by
  induction pieces generalizing r with
  | nil => exact .refl hExpected
  | cons piece rest ih =>
      have hPiece : Passes r (r.readAll piece.tokens) := by
        cases piece with
        | word text =>
            change Passes r (r.read ⟨.identifier, text⟩)
            rw [read_word hExpected]
            exact .refl hExpected
        | close c => exact readAll_close hExpected hLevel c
      rw [List.flatMap_cons, readAll_append]
      apply hPiece.trans
      apply ih hPiece.expected
      rw [hPiece.topLevel, hPiece.level]
      exact hLevel

/- A statement is passed over. -/
theorem readAll_statement
    (hExpected : r.expected = none)
    (hLevel : r.topLevel ≤ r.level)
    (s : Statement) :
    Passes r (r.readAll s.tokens) := by
  have hPieces := readAll_pieces hExpected hLevel s.pieces
  unfold Statement.tokens
  rw [readAll_append]
  apply hPieces.trans
  apply readAll_close hPieces.expected
  rw [hPieces.topLevel, hPieces.level]
  exact hLevel

end Reader

end Declarations

end SymbolAtlas

------------------------------------------------------------
-- Reading Items
------------------------------------------------------------

namespace SymbolAtlas

namespace Declarations

namespace Reader

open Outline

/-
  The reader stands between two items of a space, and has found
  some names so far.
-/
structure Awaits
    (r : Reader)
    (within : String)
    (depth : Int)
    (found : List String) : Prop where
  expected : r.expected = none
  space : r.space = within
  level : r.level = depth
  topLevel : r.topLevel = depth
  symbols : r.symbols = found.eraseDups

variable {r q : Reader} {space : String} {level : Int}
variable {found : List String}

theorem Awaits.passes
    (hAwaits : r.Awaits space level found)
    (hPasses : Passes r q) :
    q.Awaits space level found where
  expected := hPasses.expected
  space := hPasses.space.trans hAwaits.space
  level := hPasses.level.trans hAwaits.level
  topLevel := hPasses.topLevel.trans hAwaits.topLevel
  symbols := hPasses.symbols.trans hAwaits.symbols

theorem Awaits.topLevel_le
    (hAwaits : r.Awaits space level found) :
    r.topLevel ≤ r.level :=
  Int.le_of_eq (hAwaits.topLevel.trans hAwaits.level.symm)

/- A name is kept the first time it is found. -/
theorem eraseDups_concat
    (found : List String)
    (name : String) :
    (found ++ [name]).eraseDups =
      if found.eraseDups.contains name then found.eraseDups
      else found.eraseDups ++ [name] := by
  rw [List.eraseDups_append]
  by_cases hFound : name ∈ found
  · simp [List.removeAll, hFound]
  · simp [List.removeAll, hFound, List.eraseDups_cons]

theorem readAll_plain
    (hExpected : r.expected = none)
    (plain : List Plain) :
    r.readAll (plain.map Plain.token) = r := by
  induction plain with
  | nil => rfl
  | cons first rest ih =>
      have hFirst : r.read first.token = r := by
        cases first with
        | word text => exact read_word hExpected text
        | sign text =>
            have hIdle : r.IsIdle := Or.inl hExpected
            change r.settle .other = r
            rw [hIdle.settle_eq, ← hExpected]
      rw [List.map_cons, readAll_cons, hFirst, ih]

/-
  The name of a declaration is found by the first token behind
  it, which belongs to the header or opens the braces.
-/
theorem Awaits.readAll_declaration
    (hAwaits : r.Awaits space level found)
    (d : Declaration) :
    (r.readAll d.tokens).Awaits space level
      (found ++ [space ++ d.name]) := by
  let waiting : Reader :=
    { r with expected := some .declaration, name := d.name }
  let settled : Reader :=
    { waiting with
      expected := none
      symbols := r.declare (space ++ d.name) }
  have hSettle : ∀ kind, waiting.settle kind = settled := by
    intro kind
    have hLevel : (r.level == r.topLevel) = true := by
      rw [hAwaits.level, hAwaits.topLevel, beq_self_eq_true]
    simp [settle, waiting, settled, d.named, hLevel, declare,
      hAwaits.space]
  have hSettled :
      settled.Awaits space level (found ++ [space ++ d.name]) := by
    refine ⟨rfl, hAwaits.space, hAwaits.level, hAwaits.topLevel,
      ?_⟩
    change r.declare _ = _
    unfold declare
    rw [eraseDups_concat, hAwaits.symbols]
  have hBody : Passes settled (settled.readAll d.body.tokens) := by
    have hIdle : settled.IsIdle := Or.inl rfl
    exact hIdle.readAll_braces hSettled.topLevel_le d.body
  -- A brace settles what a header would have settled before.
  have hDirect :
      waiting.readAll d.body.tokens =
        settled.readAll d.body.tokens := by
    have hIdle : settled.IsIdle := Or.inl rfl
    have hOpen :
        waiting.read ⟨.braceOpen, d.body.opening⟩ =
          settled.read ⟨.braceOpen, d.body.opening⟩ := by
      change (waiting.settle .braceOpen).nest .braceOpen =
        (settled.settle .braceOpen).nest .braceOpen
      rw [hSettle, hIdle.settle_eq]
    unfold Braces.tokens
    rw [readAll_cons, readAll_cons, hOpen]
  have hName :
      r.readAll d.tokens =
        waiting.readAll
          ((d.header.map Header.tokens).getD [] ++
            d.body.tokens) := by
    have hText : "" ++ d.name = d.name := String.empty_append
    unfold Declaration.tokens
    rw [readAll_cons, readAll_cons]
    simp [read, hText, waiting]
  rw [hName, readAll_append]
  apply hSettled.passes
  cases d.header with
  | none =>
      change Passes settled (waiting.readAll d.body.tokens)
      rw [hDirect]
      exact hBody
  | some header =>
      have hHeader :
          waiting.readAll header.tokens = settled := by
        change (waiting.settle .other).readAll
          (header.rest.map Plain.token) = settled
        rw [hSettle, readAll_plain rfl]
      change Passes settled
        ((waiting.readAll header.tokens).readAll d.body.tokens)
      rw [hHeader]
      exact hBody

/- Items are read one after the other. -/
theorem Awaits.readAll_items
    (hAwaits : r.Awaits space level found)
    (items : List Item) :
    (r.readAll (items.flatMap Item.tokens)).Awaits space level
      (found ++ declared space items) := by
  induction items generalizing r found with
  | nil =>
      have hNone : found ++ declared space [] = found :=
        List.append_nil found
      rw [hNone]
      exact hAwaits
  | cons item rest ih =>
      rw [List.flatMap_cons, readAll_append]
      cases item with
      | declaration d =>
          have hMore :
              found ++ declared space (.declaration d :: rest) =
                found ++ [space ++ d.name] ++
                  declared space rest := by
            simp [declared, Item.name?]
          rw [hMore]
          exact ih (hAwaits.readAll_declaration d)
      | statement s =>
          have hMore :
              found ++ declared space (.statement s :: rest) =
                found ++ declared space rest := by
            simp [declared, List.filterMap_cons, Item.name?]
          rw [hMore]
          apply ih
          apply hAwaits.passes
          exact readAll_statement hAwaits.expected
            hAwaits.topLevel_le s

end Reader

end Declarations

end SymbolAtlas

------------------------------------------------------------
-- Reading Sections
------------------------------------------------------------

namespace SymbolAtlas

namespace Declarations

namespace Reader

open Outline

/- The reader stands outside all braces of a space. -/
structure IsOutside (r : Reader) (found : List String) : Prop where
  level : r.level = 0
  symbols : r.symbols = found.eraseDups

variable {r : Reader} {found : List String}

theorem Awaits.isOutside
    {space : String}
    (hAwaits : r.Awaits space 0 found) :
    r.IsOutside found :=
  ⟨hAwaits.level, hAwaits.symbols⟩

/- A section begins its space wherever the last one ended. -/
theorem IsOutside.readAll_flat
    (hOutside : r.IsOutside found)
    (s : FlatSection) :
    (r.readAll s.tokens).Awaits (s.name ++ "\\") 0
      (found ++ s.names) := by
  unfold FlatSection.tokens
  rw [readAll_append]
  apply Awaits.readAll_items
  have hText : "" ++ s.name = s.name := String.empty_append
  constructor <;>
    simp [read, settle, nest, hText, s.named, hOutside.level,
      hOutside.symbols]

theorem IsOutside.readAll_braced
    (hOutside : r.IsOutside found)
    (s : BracedSection) :
    (r.readAll s.tokens).IsOutside (found ++ s.names) := by
  let space := (s.name.map (· ++ "\\")).getD ""
  let opened : Reader :=
    (r.readAll (⟨.spaceWord, s.keyword⟩ ::
      (s.name.map (⟨.identifier, ·⟩)).toList)).read
        ⟨.braceOpen, s.opening⟩
  have hOpened : opened.Awaits space 1 found := by
    cases hName : s.name with
    | none =>
        constructor <;>
          simp [opened, space, hName, read, settle, nest,
            hOutside.level, hOutside.symbols]
    | some name =>
        have hText : "" ++ name = name := String.empty_append
        have hNamed : name ≠ "" := by
          rintro rfl
          exact s.named hName
        constructor <;>
          simp [opened, space, hName, read, settle, nest, hText,
            hNamed, hOutside.level, hOutside.symbols]
  have hItems := hOpened.readAll_items s.items
  have hTokens :
      r.readAll s.tokens =
        (opened.readAll (s.items.flatMap Item.tokens)).read
          ⟨.braceClose, s.closing⟩ := by
    unfold BracedSection.tokens
    simp only [readAll_cons, readAll_append, readAll_nil, opened]
  have hIdle :
      (opened.readAll (s.items.flatMap Item.tokens)).IsIdle :=
    Or.inl hItems.expected
  rw [hTokens]
  change (((opened.readAll (s.items.flatMap Item.tokens)).settle
    .braceClose).nest .braceClose).IsOutside _
  rw [hIdle.settle_eq]
  refine ⟨?_, hItems.symbols⟩
  change (opened.readAll (s.items.flatMap Item.tokens)).level - 1 =
    0
  rw [hItems.level]
  rfl

theorem IsOutside.readAll_flatSections
    (hOutside : r.IsOutside found)
    (sections : List FlatSection) :
    (r.readAll (sections.flatMap FlatSection.tokens)).IsOutside
      (found ++ sections.flatMap FlatSection.names) := by
  induction sections generalizing r found with
  | nil => simpa using hOutside
  | cons first rest ih =>
      rw [List.flatMap_cons, List.flatMap_cons, readAll_append,
        ← List.append_assoc]
      exact ih (hOutside.readAll_flat first).isOutside

theorem IsOutside.readAll_bracedSections
    (hOutside : r.IsOutside found)
    (sections : List BracedSection) :
    (r.readAll (sections.flatMap BracedSection.tokens)).IsOutside
      (found ++ sections.flatMap BracedSection.names) := by
  induction sections generalizing r found with
  | nil => simpa using hOutside
  | cons first rest ih =>
      rw [List.flatMap_cons, List.flatMap_cons, readAll_append,
        ← List.append_assoc]
      exact ih (hOutside.readAll_braced first)

theorem awaits_start :
    ({} : Reader).Awaits "" 0 [] :=
  ⟨rfl, rfl, rfl, rfl, rfl⟩

end Reader

end Declarations

namespace Outline

open Declarations

/-
  The names that are read are those of the outline's top level,
  each once and in order, whatever comments and blanks stand
  between its tokens.
-/
theorem ofTokens_eq_names
    {o : Outline}
    {tokens : List Token}
    (hTokens :
      tokens.filter Token.isSolid =
        o.tokens.filter Token.isSolid) :
    Declarations.ofTokens tokens = o.names.eraseDups := by
  have hRead :
      Declarations.ofTokens tokens =
        (Reader.readAll {} o.tokens).symbols := by
    change (Reader.readAll {} tokens).symbols = _
    rw [← Reader.readAll_filter_isSolid, hTokens,
      Reader.readAll_filter_isSolid]
  rw [hRead]
  cases o with
  | flat items sections =>
      have hItems := Reader.awaits_start.readAll_items items
      have hAll :=
        hItems.isOutside.readAll_flatSections sections
      unfold Outline.tokens Outline.names
      rw [Reader.readAll_append]
      exact hAll.symbols
  | braced statements sections =>
      have hItems :=
        Reader.awaits_start.readAll_items
          (statements.map Item.statement)
      have hNone :
          declared "" (statements.map Item.statement) = [] := by
        simp [declared, List.filterMap_map, Item.name?]
      have hAll :=
        hItems.isOutside.readAll_bracedSections sections
      rw [List.flatMap_map, hNone] at hAll
      unfold Outline.tokens Outline.names
      rw [Reader.readAll_append]
      exact hAll.symbols

/-
  A class with a method that makes an object without a class, in
  a space with a name, and a declaration that is made twice in
  one without.
-/
def mixedOutline : Outline :=
  .braced [{ last := { ending := .sign "<?php" } }] [
    { name := some "App"
      items := [
        .statement {
          pieces := [.word "Base"]
          last := { ending := .sign ";" } },
        .declaration {
          keyword := "class"
          name := "User"
          header := some ⟨"extends", [.word "Base"]⟩
          body := {
            block := {
              tokens := [
                ⟨.identifier, "make"⟩, ⟨.braceOpen, "\x7b"⟩,
                ⟨.declarationWord, "class"⟩, ⟨.braceOpen, "\x7b"⟩,
                ⟨.braceClose, "\x7d"⟩, ⟨.declarationWord, "enum"⟩,
                ⟨.identifier, "Inner"⟩, ⟨.braceClose, "\x7d"⟩] } } },
        .statement {
          last := {
            keyword := some "class"
            ending := .braces { block := { tokens := [] } } } }] },
    { name := none
      items := [
        .declaration {
          keyword := "trait"
          name := "Loose"
          body := { block := { tokens := [] } } },
        .declaration {
          keyword := "enum"
          name := "Loose"
          body := { block := { tokens := [] } } }] }]

/- The same tokens with comments and blanks between them. -/
def mixedTokens : List Token :=
  mixedOutline.tokens.flatMap fun token =>
    [⟨.blank, " "⟩, token, ⟨.comment, "/* class A */"⟩]

theorem ofTokens_mixed :
    mixedTokens.filter Token.isSolid =
      mixedOutline.tokens.filter Token.isSolid ∧
    Declarations.ofTokens mixedTokens =
      ["App\\User", "Loose"] := by
  have hSolid :
      mixedTokens.filter Token.isSolid =
        mixedOutline.tokens.filter Token.isSolid := by
    decide
  have hNames :
      mixedOutline.names.eraseDups = ["App\\User", "Loose"] := by
    decide
  exact ⟨hSolid, (ofTokens_eq_names hSolid).trans hNames⟩

end Outline

end SymbolAtlas
