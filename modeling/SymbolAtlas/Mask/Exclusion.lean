import SymbolAtlas.Mask.Basic

/-
  Exclusion masks.

  An exclusion mask is a mask core and a suffix that says what
  is excluded where the core matches. A leading slash and a
  leading `**/` mean nothing and are dropped.

  Key definitions:
    * `Exclusion.Scope`, the meaning of the suffix
    * `Exclusion`, `Exclusion.compile`
    * `Exclusion.keeps`
-/

------------------------------------------------------------
-- Scopes
------------------------------------------------------------

namespace SymbolAtlas

/- What an exclusion leaves out where its core matches. -/
inductive Exclusion.Scope where
  /- The directory and all below it. -/
  | subtree
  /- What is in the directory, not the directory itself. -/
  | contents
  /- Directories are not entered. -/
  | directories
  /- Files and directories. -/
  | everything
deriving DecidableEq, Repr

namespace Exclusion.Scope

/- The suffix that asks for a scope. -/
def suffix : Scope → List Char
| .subtree => ['/', '*', '*']
| .contents => ['/', '*']
| .directories => ['/']
| .everything => []

/- The scopes by falling length of their suffix. -/
def all : List Scope :=
  [.subtree, .contents, .directories, .everything]

/- The scope with this suffix. -/
def ofSuffix? (text : List Char) : Option Scope :=
  all.find? (·.suffix == text)

/- The scope also removes matching entries from results. -/
def filtersResults : Scope → Bool
| .subtree => true
| .everything => true
| _ => false

end Exclusion.Scope

end SymbolAtlas

------------------------------------------------------------
-- Exclusions
------------------------------------------------------------

namespace SymbolAtlas

/- A core mask and the scope of the exclusion. -/
structure Exclusion where
  core : Mask
  scope : Exclusion.Scope
deriving DecidableEq, Repr

namespace Exclusion

/- The front parts that mean nothing. -/
def slash : List Char := ['/']

def stars : List Char := ['*', '*', '/']

/-
  What is left of a text: first without a front part, if it has
  that part, then the text as it is.
-/
def tryDropping (front text : List Char) : List (List Char) :=
  if front.isPrefixOf text then [text.drop front.length, text]
  else [text]

/- The ways to cut a text behind some character, soonest first. -/
def cuts : List Char → List (List Char × List Char)
| [] => []
| c :: rest =>
    ([c], rest) ::
      (cuts rest).map fun (core, back) => (c :: core, back)

/- The shortest core that only a suffix follows. -/
def coreOf? (body : List Char) : Option (List Char × Scope) :=
  (cuts body).findSome? fun cut =>
    (Scope.ofSuffix? cut.2).map (cut.1, ·)

/-
  The core and the scope of a mask text. A front part is kept
  only if nothing can be found without it.
-/
def split? (text : List Char) : Option (List Char × Scope) :=
  (tryDropping slash text).findSome? fun behindSlash =>
    (tryDropping stars behindSlash).findSome? coreOf?

/- Read an exclusion mask. -/
def compile (text : String) : Except Error Exclusion := do
  match split? (Path.withSlashes text).toList with
  | none => .error (.invalidMask text)
  | some (core, scope) =>
      let mask ← Mask.compile (String.ofList core)
      .ok ⟨mask, scope⟩

/- An entry with this relative path is not excluded. -/
def keeps
    (exclusion : Exclusion)
    (isDirectory : Bool)
    (path : String) : Bool :=
  (!exclusion.scope.suffix.isEmpty && !isDirectory) ||
    !exclusion.core.accepts path

end Exclusion

end SymbolAtlas
