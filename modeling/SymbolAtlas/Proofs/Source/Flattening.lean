import SymbolAtlas.Source.Tree

/-
  A tree is flattened in the order of its text.

  The loop has the pending nodes on a stack, the next one last.
  Each turn takes one node from it, for a token or for the
  children of the node. What was found, followed by the tokens
  of what is pending, stays the same in every turn, while fewer
  and fewer nodes are pending or below a pending one. So the loop
  ends, with the tokens that recursion on the tree gives.

  The nodes that give these tokens are told by their places. A
  leaf gives its own token, unless it is below a node that is one
  token as a whole; the first such node above it is the only one
  that gives a token.

  Key definitions:
    * `SyntaxTree.Flattening`, `SyntaxTree.Flattening.turn`,
      `SyntaxTree.Flattening.Ends`
    * `SyntaxTree.nodeAt?`, `SyntaxTree.bearers`

  Key theorems:
    * `SyntaxTree.flatten_eq_tokensAll`
    * `SyntaxTree.Flattening.exists_ends`
    * `SyntaxTree.map_tokenAt?_bearers`
    * `SyntaxTree.exists_bearer_of_leaf`
    * `SyntaxTree.tokenize_in_document_order`
-/

------------------------------------------------------------
-- Tokens of a Node
------------------------------------------------------------

namespace SymbolAtlas

namespace SyntaxTree

variable {source : ByteArray} {tree : SyntaxTree}
variable {token : Token}

/- Nodes that are one token with all that is below them. -/
def isWhole (kind : String) : Bool :=
  isName kind || kind == "comment" || kind == "variable_name"

/- The node gives one token, and its children give none. -/
def isBearer (tree : SyntaxTree) : Bool :=
  isWhole tree.info.kind || tree.children.isEmpty

theorem isSome_tokenKind?
    (info : NodeInfo)
    (isLeaf : Bool) :
    (tokenKind? info isLeaf).isSome =
      (isWhole info.kind || isLeaf) := by
  unfold tokenKind? isWhole
  cases isName info.kind with
  | true => rfl
  | false =>
      by_cases hComment : info.kind = "comment"
      · simp [hComment]
      by_cases hVariable : info.kind = "variable_name"
      · simp [hVariable]
      cases isLeaf with
      | false => simp [hComment, hVariable]
      | true =>
          cases info.named <;> simp [hComment, hVariable]

theorem isSome_token?
    (source : ByteArray)
    (tree : SyntaxTree) :
    (token? source tree).isSome = tree.isBearer := by
  unfold token?
  rw [Option.isSome_map, isSome_tokenKind?]
  rfl

theorem isBearer_of_some
    (hToken : token? source tree = some token) :
    tree.isBearer = true := by
  rw [← isSome_token? source, hToken]
  rfl

theorem isBearer_of_none
    (hNone : token? source tree = none) :
    tree.isBearer = false := by
  rw [← isSome_token? source, hNone]
  rfl

theorem isWhole_of_isBearer
    (hBearer : tree.isBearer = true)
    (hSome : tree.children ≠ []) :
    isWhole tree.info.kind = true := by
  simpa [isBearer, hSome] using hBearer

theorem tokens_of_some
    (hToken : token? source tree = some token) :
    tokens source tree = [token] := by
  cases tree
  rw [tokens, hToken]

theorem tokens_of_none
    (hNone : token? source tree = none) :
    tokens source tree = tokensAll source tree.children := by
  cases tree
  rw [tokens, hNone]
  rfl

theorem tokensAll_append
    (source : ByteArray)
    (left right : List SyntaxTree) :
    tokensAll source (left ++ right) =
      tokensAll source left ++ tokensAll source right := by
  induction left with
  | nil => rfl
  | cons tree trees ih =>
      rw [List.cons_append, tokensAll, tokensAll, ih,
        List.append_assoc]

/- A stack gives the tokens of its trees, the top one first. -/
theorem flatten_eq_tokensAll
    (source : ByteArray)
    (stack : List SyntaxTree) :
    flatten source stack = tokensAll source stack := by
  fun_induction flatten source stack with
  | case1 => rfl
  | case2 tree pending token hToken ih =>
      rw [tokensAll, tokens_of_some hToken, ih]
      rfl
  | case3 tree pending hNone ih =>
      rw [ih, tokensAll, tokens_of_none hNone, tokensAll_append]

end SyntaxTree

end SymbolAtlas

------------------------------------------------------------
-- The Loop
------------------------------------------------------------

namespace SymbolAtlas

namespace SyntaxTree

theorem sizeAll_reverse
    (trees : List SyntaxTree) :
    sizeAll trees.reverse = sizeAll trees := by
  induction trees with
  | nil => rfl
  | cons tree trees ih =>
      simp only [List.reverse_cons, sizeAll_append, sizeAll, ih]
      omega

/-
  The loop between two turns: the tokens that were found, and the
  nodes that are pending, the next one last.
-/
structure Flattening where
  found : List Token := []
  pending : List SyntaxTree

namespace Flattening

/-
  The last of the pending nodes gives its token. If it has none,
  its children are pending in its place, the first one last.
-/
def turn (source : ByteArray) (f : Flattening) :
    Option Flattening :=
  f.pending.getLast?.map fun tree =>
    match token? source tree with
    | some token =>
        { found := f.found ++ [token]
          pending := f.pending.dropLast }
    | none =>
        { f with
          pending := f.pending.dropLast ++ tree.children.reverse }

/- The loop ends with these tokens after so many turns. -/
inductive Ends (source : ByteArray) :
    Flattening → List Token → (turns : Nat) → Prop
| idle {f : Flattening} :
    f.turn source = none → Ends source f f.found 0
| turned {f next : Flattening} {tokens : List Token}
    {turns : Nat} :
    f.turn source = some next →
      Ends source next tokens turns →
        Ends source f tokens (turns + 1)

/- What was found, and the tokens of what is pending. -/
def result (source : ByteArray) (f : Flattening) : List Token :=
  f.found ++ flatten source f.pending.reverse

/- How many nodes are pending or below a pending one. -/
def size (f : Flattening) : Nat :=
  sizeAll f.pending

variable {source : ByteArray} {f next : Flattening}

/- The loop stops when no node is pending. -/
theorem turn_eq_none_iff :
    f.turn source = none ↔ f.pending = [] := by
  unfold turn
  rw [Option.map_eq_none_iff, List.getLast?_eq_none_iff]

theorem result_of_idle
    (hIdle : f.turn source = none) :
    f.result source = f.found := by
  unfold result
  rw [turn_eq_none_iff.mp hIdle, List.reverse_nil,
    flatten_eq_tokensAll, tokensAll, List.append_nil]

/- A turn takes a node and leaves the ones in front of it. -/
theorem turn_eq_some
    (hTurn : f.turn source = some next) :
    ∃ front tree, f.pending = front ++ [tree] ∧
      ((∃ token, token? source tree = some token ∧
          next = ⟨f.found ++ [token], front⟩) ∨
        token? source tree = none ∧
          next = ⟨f.found, front ++ tree.children.reverse⟩) := by
  unfold turn at hTurn
  rw [Option.map_eq_some_iff] at hTurn
  rcases hTurn with ⟨tree, hLast, hNext⟩
  rcases List.getLast?_eq_some_iff.mp hLast with ⟨front, hPending⟩
  rw [hPending, List.dropLast_concat] at hNext
  refine ⟨front, tree, hPending, ?_⟩
  cases hToken : token? source tree with
  | some token =>
      rw [hToken] at hNext
      exact .inl ⟨token, rfl, hNext.symm⟩
  | none =>
      rw [hToken] at hNext
      exact .inr ⟨rfl, hNext.symm⟩

/- A turn keeps the result: this is the invariant of the loop. -/
theorem result_turn
    (hTurn : f.turn source = some next) :
    next.result source = f.result source := by
  rcases turn_eq_some hTurn with
    ⟨front, tree, hPending, ⟨token, hToken, rfl⟩ | ⟨hNone, rfl⟩⟩
  · unfold result
    rw [hPending, List.reverse_concat, flatten_eq_tokensAll,
      flatten_eq_tokensAll, tokensAll, tokens_of_some hToken,
      List.append_assoc]
  · unfold result
    rw [hPending, List.reverse_concat, List.reverse_append,
      List.reverse_reverse, flatten_eq_tokensAll,
      flatten_eq_tokensAll, tokensAll_append, tokensAll,
      tokens_of_none hNone]

/- A turn takes at least the node itself away. -/
theorem size_turn_lt
    (hTurn : f.turn source = some next) :
    next.size < f.size := by
  rcases turn_eq_some hTurn with
    ⟨front, tree, hPending, ⟨token, -, rfl⟩ | ⟨-, rfl⟩⟩
  · simp only [size, hPending, sizeAll_append, sizeAll, size_eq]
    omega
  · simp only [size, hPending, sizeAll_append, sizeAll, size_eq,
      sizeAll_reverse]
    omega

/-
  The loop ends with its result, after no more turns than there
  are nodes left. The induction is on how many these are.
-/
theorem exists_ends
    (source : ByteArray)
    (f : Flattening) :
    ∃ turns ≤ f.size, Ends source f (f.result source) turns := by
  induction hSize : f.size using Nat.strongRecOn
      generalizing f with
  | ind size ih =>
      cases hTurn : f.turn source with
      | none =>
          refine ⟨0, Nat.zero_le _, ?_⟩
          rw [result_of_idle hTurn]
          exact .idle hTurn
      | some next =>
          have hLess := size_turn_lt hTurn
          rcases ih next.size (by omega) next rfl with
            ⟨turns, hTurns, hRest⟩
          rw [result_turn hTurn] at hRest
          exact ⟨turns + 1, by omega, .turned hTurn hRest⟩

/- The loop ends in one way only. -/
theorem Ends.unique
    {tokens others : List Token}
    {turns more : Nat}
    (hEnds : Ends source f tokens turns)
    (hOther : Ends source f others more) :
    others = tokens ∧ more = turns := by
  induction hEnds generalizing others more with
  | idle hIdle =>
      cases hOther with
      | idle => exact ⟨rfl, rfl⟩
      | turned hTurn => simp [hIdle] at hTurn
  | turned hTurn _ ih =>
      cases hOther with
      | idle hIdle => simp [hTurn] at hIdle
      | turned hSame hRest =>
          rw [hTurn, Option.some.injEq] at hSame
          subst hSame
          rcases ih hRest with ⟨hTokens, hTurns⟩
          exact ⟨hTokens, congrArg (· + 1) hTurns⟩

end Flattening

end SyntaxTree

end SymbolAtlas

------------------------------------------------------------
-- Places
------------------------------------------------------------

namespace SymbolAtlas

namespace SyntaxTree

/-
  A place in a tree: the numbers of the children that lead there
  from the root. In the order of places, a node stands before
  what is below it, and this before the next sibling.
-/
abbrev Place := List Nat

/- The node at a place. -/
def nodeAt? : SyntaxTree → Place → Option SyntaxTree
| tree, [] => some tree
| tree, i :: rest =>
    tree.children[i]?.bind fun child => child.nodeAt? rest

/- The one token of the node at a place. -/
def tokenAt? (source : ByteArray) (tree : SyntaxTree)
    (place : Place) : Option Token :=
  (tree.nodeAt? place).bind (token? source)

mutual

/- The places of the nodes that give the tokens of a tree. -/
def bearers : SyntaxTree → List Place
| .node info children =>
    if isBearer (.node info children) then [[]]
    else bearersAmong 0 children

/- The same for siblings that are numbered from `i` on. -/
def bearersAmong : (i : Nat) → List SyntaxTree → List Place
| _, [] => []
| i, tree :: trees =>
    (bearers tree).map (i :: ·) ++ bearersAmong (i + 1) trees

end

variable {source : ByteArray} {tree leaf : SyntaxTree}

theorem bearers_of_isBearer
    (hBearer : tree.isBearer = true) :
    tree.bearers = [[]] := by
  cases tree
  rw [bearers, if_pos hBearer]

theorem bearers_of_not_isBearer
    (hInner : tree.isBearer = false) :
    tree.bearers = bearersAmong 0 tree.children := by
  cases tree
  rw [bearers, hInner]
  rfl

theorem mem_bearersAmong_iff
    {i : Nat}
    {trees : List SyntaxTree}
    {place : Place} :
    place ∈ bearersAmong i trees ↔
      ∃ j tree rest,
        trees[j]? = some tree ∧ rest ∈ tree.bearers ∧
          place = (i + j) :: rest := by
  induction trees generalizing i with
  | nil => simp [bearersAmong]
  | cons first trees ih =>
      rw [bearersAmong, List.mem_append, List.mem_map, ih]
      constructor
      · rintro (⟨rest, hRest, rfl⟩ |
          ⟨j, tree, rest, hTree, hRest, rfl⟩)
        · exact ⟨0, first, rest, rfl, hRest, rfl⟩
        · exact ⟨j + 1, tree, rest, hTree, hRest,
            congrArg (· :: rest) (by omega)⟩
      · rintro ⟨j, tree, rest, hTree, hRest, rfl⟩
        cases j with
        | zero =>
            rw [List.getElem?_cons_zero, Option.some.injEq] at hTree
            subst hTree
            exact .inl ⟨rest, hRest, rfl⟩
        | succ j =>
            exact .inr ⟨j, tree, rest, hTree, hRest,
              congrArg (· :: rest) (by omega)⟩

end SyntaxTree

end SymbolAtlas

------------------------------------------------------------
-- Nodes That Give Tokens
------------------------------------------------------------

namespace SymbolAtlas

namespace SyntaxTree

variable {source : ByteArray} {tree leaf : SyntaxTree}

/- The tokens of siblings are those of the nodes at their places. -/
theorem map_tokenAt?_bearersAmong
    (source : ByteArray)
    (info : NodeInfo)
    (before trees : List SyntaxTree)
    (hTrees :
      ∀ tree ∈ trees,
        tree.bearers.map (tree.tokenAt? source) =
          (tree.tokens source).map some) :
    (bearersAmong before.length trees).map
        (tokenAt? source (.node info (before ++ trees))) =
      (tokensAll source trees).map some := by
  induction trees generalizing before with
  | nil => rfl
  | cons tree trees ih =>
      have hHere :
          tokenAt? source (.node info (before ++ tree :: trees)) ∘
              (before.length :: ·) =
            tree.tokenAt? source := by
        funext place
        simp [tokenAt?, nodeAt?, children]
      have hRest :=
        ih (before ++ [tree])
          fun other hOther =>
            hTrees other (List.mem_cons_of_mem _ hOther)
      rw [List.length_append, List.length_singleton,
        List.append_assoc, List.singleton_append] at hRest
      rw [bearersAmong, tokensAll, List.map_append, List.map_append,
        List.map_map, hHere, hRest,
        hTrees tree List.mem_cons_self]

/- Each token is the one of its own node, in the same order. -/
theorem map_tokenAt?_bearers
    (source : ByteArray)
    (tree : SyntaxTree) :
    tree.bearers.map (tree.tokenAt? source) =
      (tree.tokens source).map some := by
  induction tree using byChildren with
  | node info children ih =>
      cases hToken : token? source (.node info children) with
      | some token =>
          rw [bearers_of_isBearer (isBearer_of_some hToken),
            tokens_of_some hToken]
          simp [tokenAt?, nodeAt?, hToken]
      | none =>
          rw [bearers_of_not_isBearer (isBearer_of_none hToken),
            tokens_of_none hToken]
          exact map_tokenAt?_bearersAmong source info [] children ih

theorem pairwise_bearersAmong
    (i : Nat)
    (trees : List SyntaxTree)
    (hTrees : ∀ tree ∈ trees, tree.bearers.Pairwise (· < ·)) :
    (bearersAmong i trees).Pairwise (· < ·) := by
  induction trees generalizing i with
  | nil => exact .nil
  | cons tree trees ih =>
      rw [bearersAmong, List.pairwise_append]
      refine ⟨?_, ?_, ?_⟩
      · rw [List.pairwise_map]
        exact (hTrees tree List.mem_cons_self).imp
          fun hLess => List.cons_lt_cons_self.mpr hLess
      · exact ih (i + 1) fun other hOther =>
          hTrees other (List.mem_cons_of_mem _ hOther)
      · intro place hPlace other hOther
        rcases List.mem_map.mp hPlace with ⟨rest, -, rfl⟩
        rcases mem_bearersAmong_iff.mp hOther with
          ⟨j, -, more, -, -, rfl⟩
        exact List.cons_lt_cons_iff.mpr (.inl (by omega))

/- The nodes that give tokens follow each other in the text. -/
theorem pairwise_bearers
    (tree : SyntaxTree) :
    tree.bearers.Pairwise (· < ·) := by
  induction tree using byChildren with
  | node info children ih =>
      by_cases hBearer : isBearer (.node info children) = true
      · rw [bearers_of_isBearer hBearer]
        exact List.pairwise_singleton _ _
      · rw [bearers_of_not_isBearer (by simpa using hBearer)]
        exact pairwise_bearersAmong 0 children ih

/- Nothing below a node that gives a token gives one. -/
theorem on_way_from_bearer_iff
    {place other : Place}
    (hBearer : tree.isBearer = true) :
    other ∈ tree.bearers ∧ other <+: place ↔ other = [] := by
  rw [bearers_of_isBearer hBearer, List.mem_singleton]
  constructor
  · exact And.left
  · rintro rfl
    exact ⟨rfl, List.nil_prefix⟩

/- A way that goes on at a child has that child's tokens on it. -/
theorem on_way_to_child_iff
    {i : Nat}
    {rest other : Place}
    {child : SyntaxTree}
    (hInner : tree.isBearer = false)
    (hChild : tree.children[i]? = some child) :
    other ∈ tree.bearers ∧ other <+: i :: rest ↔
      ∃ tail, (tail ∈ child.bearers ∧ tail <+: rest) ∧
        other = i :: tail := by
  rw [bearers_of_not_isBearer hInner, mem_bearersAmong_iff]
  constructor
  · rintro ⟨⟨j, node, tail, hNode, hTail, rfl⟩, hPrefix⟩
    rw [Nat.zero_add, List.cons_prefix_cons] at hPrefix
    rcases hPrefix with ⟨rfl, hPrefix⟩
    rw [hChild, Option.some.injEq] at hNode
    subst hNode
    exact ⟨tail, ⟨hTail, hPrefix⟩, by rw [Nat.zero_add]⟩
  · rintro ⟨tail, ⟨hTail, hPrefix⟩, rfl⟩
    exact ⟨⟨i, child, tail, hChild, hTail, by rw [Nat.zero_add]⟩,
      List.cons_prefix_cons.mpr ⟨rfl, hPrefix⟩⟩

/-
  Just one node on the way to a leaf gives a token: the leaf, or
  a node that is one token as a whole. The induction is on the
  way, which ends at the first node that gives a token.
-/
theorem exists_bearer_of_leaf
    {place : Place}
    (hLeaf : tree.nodeAt? place = some leaf)
    (hNone : leaf.children = []) :
    ∃ bearer,
      (∀ other,
        other ∈ tree.bearers ∧ other <+: place ↔
          other = bearer) ∧
      (bearer = place ∨
        ∃ node, tree.nodeAt? bearer = some node ∧
          isWhole node.info.kind = true) := by
  induction place generalizing tree with
  | nil =>
      rw [nodeAt?, Option.some.injEq] at hLeaf
      subst hLeaf
      have hBearer : tree.isBearer = true := by
        simp [isBearer, hNone]
      exact ⟨[], fun _ => on_way_from_bearer_iff hBearer, .inl rfl⟩
  | cons i rest ih =>
      rw [nodeAt?, Option.bind_eq_some_iff] at hLeaf
      rcases hLeaf with ⟨child, hChild, hLeaf⟩
      cases hBearer : tree.isBearer with
      | true =>
          have hSome : tree.children ≠ [] := by
            intro hNil
            simp [hNil] at hChild
          exact ⟨[], fun _ => on_way_from_bearer_iff hBearer,
            .inr ⟨tree, rfl, isWhole_of_isBearer hBearer hSome⟩⟩
      | false =>
          rcases ih hLeaf with ⟨bearer, hOnly, hKind⟩
          refine ⟨i :: bearer, fun other => ?_, ?_⟩
          · simp only [on_way_to_child_iff hBearer hChild, hOnly,
              exists_eq_left]
          · rcases hKind with rfl | ⟨node, hNode, hWhole⟩
            · exact .inl rfl
            · refine .inr ⟨node, ?_, hWhole⟩
              rw [nodeAt?, hChild]
              exact hNode

end SyntaxTree

end SymbolAtlas

------------------------------------------------------------
-- Flattening a Tree
------------------------------------------------------------

namespace SymbolAtlas

namespace SyntaxTree

/-
  A tree that is not marked is flattened. The loop ends, in
  exactly one way, with the tokens that recursion on the tree
  gives. Each token belongs to one node, and the places of these
  nodes are in order. On the way to a leaf there is exactly one
  of these nodes: the leaf, or a node that is one token with all
  that is below it.
-/
theorem tokenize_in_document_order
    (source : ByteArray)
    (path : Option String)
    (tree : SyntaxTree)
    (hClean : tree.info.hasError = false) :
    (∃ turns ≤ tree.size, ∀ tokens n,
      Flattening.Ends source { pending := [tree] } tokens n ↔
        tokens = tree.tokens source ∧ n = turns) ∧
    tree.tokenize source path = .ok (tree.tokens source) ∧
    tree.bearers.map (tree.tokenAt? source) =
      (tree.tokens source).map some ∧
    tree.bearers.Pairwise (· < ·) ∧
    ∀ place leaf,
      tree.nodeAt? place = some leaf → leaf.children = [] →
        ∃ bearer,
          (∀ other,
            other ∈ tree.bearers ∧ other <+: place ↔
              other = bearer) ∧
          (bearer = place ∨
            ∃ node, tree.nodeAt? bearer = some node ∧
              isWhole node.info.kind = true) := by
  have hTokens : flatten source [tree] = tree.tokens source := by
    rw [flatten_eq_tokensAll, tokensAll, tokensAll, List.append_nil]
  refine ⟨?_, ?_, map_tokenAt?_bearers source tree,
    pairwise_bearers tree,
    fun place leaf hLeaf hNone => exists_bearer_of_leaf hLeaf hNone⟩
  · rcases Flattening.exists_ends source { pending := [tree] } with
      ⟨turns, hTurns, hEnds⟩
    have hResult :
        Flattening.result source { pending := [tree] } =
          tree.tokens source := hTokens
    rw [hResult] at hEnds
    refine ⟨turns, hTurns, fun tokens n => ⟨hEnds.unique, ?_⟩⟩
    rintro ⟨rfl, rfl⟩
    exact hEnds
  · rw [tokenize, hClean, hTokens]
    rfl

/- The tree of a class declaration and a variable behind it. -/
def classAndVariable : SyntaxTree :=
  let leaf (kind : String) (start stop : Nat) : SyntaxTree :=
    .node { kind, start, stop, named := false } []
  .node { kind := "program", stop := 18 }
    [.node { kind := "php_tag", stop := 5 } [],
      .node { kind := "class_declaration", start := 6, stop := 15 }
        [leaf "class" 6 11,
          .node { kind := "name", start := 12, stop := 13 } [],
          .node { kind := "declaration_list", start := 13, stop := 15 }
            [leaf "\x7b" 13 14, leaf "\x7d" 14 15]],
      .node
        { kind := "expression_statement", start := 15, stop := 18 }
        [.node { kind := "variable_name", start := 15, stop := 17 }
            [leaf "$" 15 16,
              .node { kind := "name", start := 16, stop := 17 } []],
          leaf ";" 17 18]]

/-
  The name in the variable gives no token; the variable is the
  only node above it that does.
-/
theorem class_and_variable_in_order :
    let source := "<?php class A\x7b\x7d$x;".toUTF8
    classAndVariable.info.hasError = false ∧
    (∃ leaf, classAndVariable.nodeAt? [2, 0, 1] = some leaf ∧
      leaf.children = []) ∧
    (∃ turns ≤ classAndVariable.size, ∀ tokens n,
      Flattening.Ends source { pending := [classAndVariable] }
          tokens n ↔
        tokens = classAndVariable.tokens source ∧ n = turns) ∧
    classAndVariable.tokenize source none =
      .ok [⟨.other, "<?php"⟩, ⟨.declarationWord, "class"⟩,
        ⟨.identifier, "A"⟩, ⟨.braceOpen, "\x7b"⟩,
        ⟨.braceClose, "\x7d"⟩, ⟨.other, "$x"⟩, ⟨.other, ";"⟩] ∧
    (∀ other,
      other ∈ classAndVariable.bearers ∧ other <+: [2, 0, 1] ↔
        other = [2, 0]) ∧
    ∃ node, classAndVariable.nodeAt? [2, 0] = some node ∧
      isWhole node.info.kind = true := by
  intro source
  rcases tokenize_in_document_order source none classAndVariable
      rfl with
    ⟨hEnds, hTokens, -, -, hLeaves⟩
  rcases hLeaves [2, 0, 1] _ rfl rfl with ⟨bearer, hOnly, hKind⟩
  have hBearer : [2, 0] = bearer :=
    (hOnly [2, 0]).mp ⟨by decide, by decide⟩
  subst hBearer
  refine ⟨rfl, ⟨_, rfl, rfl⟩, hEnds, ?_, hOnly,
    hKind.resolve_left (by decide)⟩
  rw [hTokens]
  exact congrArg Except.ok (by decide +kernel)

end SyntaxTree

end SymbolAtlas
