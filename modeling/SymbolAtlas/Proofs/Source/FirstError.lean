import SymbolAtlas.Source.Tree

/-
  The error that is reported is the first one in the tree.

  A node is marked if it is an error or one is below it. So the
  first child that is marked holds the first error that is below
  its parent: there is none in the children before it. The search
  goes down to this child and never has to come back.

  Key definitions:
    * `SyntaxTree.nodes`, `SyntaxTree.IsMarkedWell`

  Key theorems:
    * `SyntaxTree.find?_nodesAmong`
    * `SyntaxTree.find?_nodes`
    * `SyntaxTree.tokenize_reports_first_error`
-/

------------------------------------------------------------
-- Nodes and Their Marks
------------------------------------------------------------

namespace SymbolAtlas

namespace SyntaxTree

mutual

/-
  The nodes of a tree, each before those below it and these from
  left to right.
-/
def nodes : SyntaxTree → List SyntaxTree
| .node info children =>
    .node info children :: nodesAmong children

/- The nodes of several trees, one tree after the other. -/
def nodesAmong : List SyntaxTree → List SyntaxTree
| [] => []
| tree :: trees => nodes tree ++ nodesAmong trees

end

/- The tree is an error, or there is one below it. -/
def holdsError (tree : SyntaxTree) : Bool :=
  tree.nodes.any isError

/- Exactly those nodes are marked that hold an error. -/
def IsMarkedWell (tree : SyntaxTree) : Prop :=
  ∀ node ∈ tree.nodes, node.info.hasError = node.holdsError

instance (tree : SyntaxTree) : Decidable tree.IsMarkedWell :=
  inferInstanceAs
    (Decidable
      (∀ node ∈ tree.nodes,
        node.info.hasError = node.holdsError))

variable {tree child : SyntaxTree}

theorem nodes_eq
    (tree : SyntaxTree) :
    tree.nodes = tree :: nodesAmong tree.children := by
  cases tree
  rfl

theorem self_mem_nodes
    (tree : SyntaxTree) :
    tree ∈ tree.nodes := by
  rw [nodes_eq]
  exact List.mem_cons_self

theorem nodesAmong_eq_flatMap
    (trees : List SyntaxTree) :
    nodesAmong trees = trees.flatMap nodes := by
  induction trees with
  | nil => rfl
  | cons tree trees ih =>
      rw [nodesAmong, ih, List.flatMap_cons]

theorem IsMarkedWell.hasError_eq
    (hMarks : tree.IsMarkedWell) :
    tree.info.hasError = tree.holdsError :=
  hMarks tree tree.self_mem_nodes

theorem IsMarkedWell.of_mem_children
    (hMarks : tree.IsMarkedWell)
    (hChild : child ∈ tree.children) :
    child.IsMarkedWell := by
  intro node hNode
  apply hMarks
  rw [nodes_eq, nodesAmong_eq_flatMap]
  exact List.mem_cons_of_mem _
    (List.mem_flatMap.mpr ⟨child, hChild, hNode⟩)

/- A missing node holds an error, so it adds no other mark. -/
theorem IsMarkedWell.isMarked_eq
    (hMarks : tree.IsMarkedWell) :
    tree.isMarked = tree.holdsError := by
  rw [isMarked, hMarks.hasError_eq]
  cases hMissing : tree.info.missing with
  | false => rw [Bool.or_false]
  | true =>
      rw [Bool.or_true, holdsError, nodes_eq, List.any_cons,
        isError, hMissing, Bool.or_true, Bool.true_or]

end SyntaxTree

end SymbolAtlas

------------------------------------------------------------
-- The First Error
------------------------------------------------------------

namespace SymbolAtlas

namespace SyntaxTree

variable {tree : SyntaxTree}

/-
  Among siblings, the search ends at the first one that is
  marked. Those before it hold no error, and if none is marked
  there is no error at all.
-/
theorem find?_nodesAmong
    (trees : List SyntaxTree)
    (hMarks : ∀ tree ∈ trees, tree.IsMarkedWell)
    (hFound :
      ∀ tree ∈ trees, tree.holdsError = true →
        tree.nodes.find? isError = some tree.firstError) :
    (nodesAmong trees).find? isError = firstErrorAmong trees := by
  induction trees with
  | nil => rfl
  | cons tree trees ih =>
      rw [nodesAmong, firstErrorAmong, List.find?_append,
        (hMarks tree List.mem_cons_self).isMarked_eq]
      cases hHolds : tree.holdsError with
      | true =>
          rw [hFound tree List.mem_cons_self hHolds]
          rfl
      | false =>
          have hNone : tree.nodes.find? isError = none := by
            rw [List.find?_eq_none]
            intro node hNode
            rw [holdsError, List.any_eq_false] at hHolds
            exact hHolds node hNode
          rw [hNone]
          exact ih
            (fun other hOther =>
              hMarks other (List.mem_cons_of_mem _ hOther))
            (fun other hOther =>
              hFound other (List.mem_cons_of_mem _ hOther))

/-
  The search finds the first error of a tree that holds one. The
  induction is on the tree: below a node that is no error itself,
  the first error among the children is the one of the node.
-/
theorem find?_nodes
    (hMarks : tree.IsMarkedWell)
    (hHolds : tree.holdsError = true) :
    tree.nodes.find? isError = some tree.firstError := by
  induction tree using byChildren with
  | node info children ih =>
      rw [nodes_eq, List.find?_cons, firstError]
      cases hError : isError (.node info children) with
      | true => rfl
      | false =>
          have hAmong :=
            find?_nodesAmong children
              (fun child hChild => hMarks.of_mem_children hChild)
              (fun child hChild =>
                ih child hChild (hMarks.of_mem_children hChild))
          rw [holdsError, nodes_eq, List.any_cons, hError,
            Bool.false_or, ← List.isSome_find?] at hHolds
          rcases Option.isSome_iff_exists.mp hHolds with
            ⟨first, hFirst⟩
          have hSearch : firstErrorAmong children = some first :=
            hAmong.symm.trans hFirst
          rw [hSearch]
          exact hFirst

/-
  A tree that is marked well and marked at its root is refused.
  The error names the path and the line of the first node that is
  an error.
-/
theorem tokenize_reports_first_error
    (source : ByteArray)
    (path : Option String)
    (tree : SyntaxTree)
    (hMarks : tree.IsMarkedWell)
    (hRoot : tree.info.hasError = true) :
    ∃ first error,
      tree.nodes.find? isError = some first ∧
      tree.tokenize source path = .error error ∧
      error = .malformedSource path (some (first.info.row + 1)) ∧
      error.message =
        "Syntax error in " ++ Error.sourceName path ++
          " on line " ++ toString (first.info.row + 1) := by
  have hHolds : tree.holdsError = true :=
    hMarks.hasError_eq.symm.trans hRoot
  refine ⟨tree.firstError, _, find?_nodes hMarks hHolds, ?_, rfl, ?_⟩
  · rw [tokenize, if_pos hRoot]
  · unfold Error.message
    exact String.append_assoc.symm

/-
  The tree of three lines. The class on the second one has no
  name, and behind it stands what cannot be read at all.
-/
def namelessClass : SyntaxTree :=
  .node { kind := "program", hasError := true }
    [.node { kind := "php_tag" } [],
      .node { kind := "class_declaration", hasError := true, row := 1 }
        [.node { kind := "class", named := false, row := 1 } [],
          .node
            { kind := "name", missing := true, hasError := true
              row := 1 } [],
          .node { kind := "declaration_list", row := 1 } []],
      .node { kind := "ERROR", hasError := true, row := 2 }
        [.node { kind := "name", row := 2 } []]]

/- The missing name is reported, not what comes behind it. -/
theorem missing_name_is_reported :
    namelessClass.IsMarkedWell ∧
    namelessClass.info.hasError = true ∧
    ∃ error,
      namelessClass.tokenize ByteArray.empty (some "broken.php") =
        .error error ∧
      error.message = "Syntax error in broken.php on line 2" := by
  have hMarks : namelessClass.IsMarkedWell := by decide
  rcases tokenize_reports_first_error ByteArray.empty
      (some "broken.php") namelessClass hMarks rfl with
    ⟨first, error, hFirst, hRefused, -, hMessage⟩
  have hRow : first.info.row = 1 := by
    have hFound :
        (namelessClass.nodes.find? isError).map (·.info.row) =
          some 1 := by
      decide
    rw [hFirst] at hFound
    exact Option.some.inj hFound
  refine ⟨hMarks, rfl, error, hRefused, ?_⟩
  rw [hMessage, hRow]
  decide

end SyntaxTree

end SymbolAtlas
