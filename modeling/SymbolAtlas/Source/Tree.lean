import SymbolAtlas.Error
import SymbolAtlas.Source.Token
import SymbolAtlas.Text.Utf8

/-
  Syntax trees and their tokens.

  A tree is flattened from left to right. Names, comments and
  variables are one token each, whatever is below them; any
  other inner node gives the tokens of its children. A tree
  with an error is not flattened: its first error is reported.

  Key definitions:
    * `SyntaxTree`, `SyntaxTree.token?`
    * `SyntaxTree.tokens`, by recursion on the tree
    * `SyntaxTree.flatten`, with the pending nodes on a stack
    * `SyntaxTree.firstError`
-/

------------------------------------------------------------
-- Trees
------------------------------------------------------------

namespace SymbolAtlas

/- What a parser says of one node. -/
structure NodeInfo where
  kind : String
  start : Nat := 0
  stop : Nat := 0
  named : Bool := true
  missing : Bool := false
  hasError : Bool := false
  row : Nat := 0
deriving DecidableEq, Repr, Inhabited

inductive SyntaxTree where
  | node (info : NodeInfo) (children : List SyntaxTree)
deriving Repr, Inhabited

namespace SyntaxTree

def info : SyntaxTree → NodeInfo
| .node info _ => info

def children : SyntaxTree → List SyntaxTree
| .node _ children => children

mutual

/- The number of nodes of a tree. -/
def size : SyntaxTree → Nat
| .node _ children => 1 + sizeAll children

/- The number of nodes of several trees. -/
def sizeAll : List SyntaxTree → Nat
| [] => 0
| tree :: trees => tree.size + sizeAll trees

end

@[simp] theorem sizeAll_append
    (left right : List SyntaxTree) :
    sizeAll (left ++ right) = sizeAll left + sizeAll right := by
  induction left with
  | nil => simp [sizeAll]
  | cons tree trees ih =>
      simp only [List.cons_append, sizeAll, ih]
      omega

theorem size_eq
    (tree : SyntaxTree) :
    tree.size = 1 + sizeAll tree.children := by
  cases tree
  simp [size, children]

/-
  What holds of every node all of whose children it holds of
  holds of every tree.
-/
@[elab_as_elim]
theorem byChildren
    {motive : SyntaxTree → Prop}
    (node :
      ∀ info children,
        (∀ child ∈ children, motive child) →
          motive (.node info children)) :
    ∀ tree, motive tree
| .node info children =>
    node info children fun child _ => byChildren node child

end SyntaxTree

end SymbolAtlas

------------------------------------------------------------
-- Tokens
------------------------------------------------------------

namespace SymbolAtlas

namespace SyntaxTree

/- The text that a node covers. -/
def text (source : ByteArray) (info : NodeInfo) : String :=
  Utf8.text (source.extract info.start info.stop)

/- Nodes that are names, with their parts or without. -/
def isName (kind : String) : Bool :=
  ["name", "namespace_name", "qualified_name"].contains kind

/- Words that declare something. -/
def isDeclarationWord (kind : String) : Bool :=
  ["class", "interface", "trait", "enum"].contains kind

/- The token kind of a node that stands for a word or a sign. -/
def signKind (kind : String) : TokenKind :=
  if kind = "namespace" then .spaceWord
  else if isDeclarationWord kind then .declarationWord
  else if kind = "\x7b" ∨ kind = "$\x7b" then .braceOpen
  else if kind = "\x7d" then .braceClose
  else .other

/-
  The kind of the one token that a node gives, if its children
  are not to be visited.
-/
def tokenKind? (info : NodeInfo) (isLeaf : Bool) :
    Option TokenKind :=
  if isName info.kind then some .identifier
  else if info.kind = "comment" then some .comment
  else if info.kind = "variable_name" then some .other
  else if !isLeaf then none
  else if info.named then some .other
  else some (signKind info.kind)

/- The one token of a node. -/
def token? (source : ByteArray) (tree : SyntaxTree) :
    Option Token :=
  (tokenKind? tree.info tree.children.isEmpty).map
    (⟨·, text source tree.info⟩)

mutual

/- The tokens of a tree from left to right. -/
def tokens (source : ByteArray) : SyntaxTree → List Token
| .node info children =>
    match token? source (.node info children) with
    | some token => [token]
    | none => tokensAll source children

/- The tokens of several trees, one tree after the other. -/
def tokensAll (source : ByteArray) :
    List SyntaxTree → List Token
| [] => []
| tree :: trees => tokens source tree ++ tokensAll source trees

end

/- The tokens of the nodes on a stack, the top one first. -/
def flatten (source : ByteArray) :
    List SyntaxTree → List Token
| [] => []
| tree :: pending =>
    match token? source tree with
    | some token => token :: flatten source pending
    | none => flatten source (tree.children ++ pending)
termination_by stack => sizeAll stack
decreasing_by
  · simp only [sizeAll, size_eq]
    omega
  · simp only [sizeAll, sizeAll_append, size_eq]
    omega

end SyntaxTree

end SymbolAtlas

------------------------------------------------------------
-- Errors
------------------------------------------------------------

namespace SymbolAtlas

namespace SyntaxTree

/- The node is an error itself. -/
def isError (tree : SyntaxTree) : Bool :=
  tree.info.kind == "ERROR" || tree.info.missing

/- The node is marked as having an error or is missing. -/
def isMarked (tree : SyntaxTree) : Bool :=
  tree.info.hasError || tree.info.missing

mutual

/- The first error at or below a node, or the node itself. -/
def firstError : SyntaxTree → SyntaxTree
| .node info children =>
    if isError (.node info children) then .node info children
    else
      (firstErrorAmong children).getD (.node info children)

/- The first error below the first node that is marked. -/
def firstErrorAmong : List SyntaxTree → Option SyntaxTree
| [] => none
| tree :: trees =>
    if isMarked tree then some (firstError tree)
    else firstErrorAmong trees

end

/- The tokens of a tree, or the place of its first error. -/
def tokenize
    (source : ByteArray)
    (path : Option String)
    (tree : SyntaxTree) : Except Error (List Token) :=
  if tree.info.hasError then
    .error
      (.malformedSource path (some (tree.firstError.info.row + 1)))
  else .ok (flatten source [tree])

end SyntaxTree

end SymbolAtlas
