import SymbolAtlas.Mask.Basic
import SymbolAtlas.Search.Trace

/-
  Walking a directory tree.

  A walker lists a directory, examines its entries in order
  and goes down into the directories among them. An entry is
  found when it meets a goal and passes the content filters; a
  directory is entered when some goal is deep and it passes
  the descent filters. The filters are asked anew for every
  goal, but their answers on the entry are remembered.

  Key definitions:
    * `Search.Goal`, `Search.Walker`
    * `Search.Walker.prove`, filters with remembered answers
    * `Search.Walker.walk`
-/

------------------------------------------------------------
-- Goals and Walkers
------------------------------------------------------------

namespace SymbolAtlas

namespace Search

/- A mask, the kind of entry wanted, and how far to look. -/
structure Goal where
  mask : Mask
  kind : EntryKind
  deep : Bool
deriving DecidableEq, Repr

/- The entry is of the kind and accepted by the mask. -/
def Goal.isMetBy (goal : Goal) (record : Record) : Bool :=
  record.kind == goal.kind && goal.mask.accepts record.relative

/-
  How to walk. The filters that decide on results and on
  descent are given by their position in `filters`.
-/
structure Walker where
  filters : List (Record → Bool) := []
  content : List Nat := []
  descent : List Nat := []
  order : Option (Record → Record → Bool) := none
  childFirst : Bool := false
  maxDepth : Option Nat := none
  ignoreUnreadable : Bool := true

end Search

end SymbolAtlas

------------------------------------------------------------
-- Filters
------------------------------------------------------------

namespace SymbolAtlas

namespace Search

namespace Walker

/- Answers of filters on the entry at hand. -/
abbrev Memo := List (Nat × Bool)

/- The outcome of some tests and the answers known then. -/
structure Proof where
  holds : Bool
  memo : Memo
  events : List (Event Nat)

/- The answer of one filter. A missing filter passes all. -/
def answer (w : Walker) (record : Record) (index : Nat) : Bool :=
  match w.filters[index]? with
  | some filter => filter record
  | none => true

/- Test filters until one fails, each at most once. -/
def prove (w : Walker) (record : Record) :
    List Nat → Memo → Proof
| [], memo => ⟨true, memo, []⟩
| index :: rest, memo =>
    match memo.lookup index with
    | some true => prove w record rest memo
    | some false => ⟨false, memo, []⟩
    | none =>
        let result := w.answer record index
        let known := (index, result) :: memo
        let event := Event.tested index record
        if result then
          let later := prove w record rest known
          ⟨later.holds, later.memo, event :: later.events⟩
        else ⟨false, known, [event]⟩

end Walker

end Search

end SymbolAtlas

------------------------------------------------------------
-- Walking
------------------------------------------------------------

namespace SymbolAtlas

namespace Search

namespace Walker

/- The records of a directory in the order of the walk. -/
def entries
    (w : Walker)
    (d : Disk)
    (directory above : String) : Except Fault (List Record) :=
  (Record.ofDirectory d directory above).map fun records =>
    match w.order with
    | some le => records.mergeSort le
    | none => records

/- A directory that cannot be listed is skipped or reported. -/
def unreadable
    (w : Walker)
    (directory : String)
    (fault : Fault) : Trace Nat :=
  if w.ignoreUnreadable then .empty
  else .fail (.unlistable directory ⟨fault, directory, none⟩)

/- The deep goals that remain, each put to the filters in turn. -/
def descendFor
    (w : Walker)
    (record : Record) : List Goal → Memo → List Goal × Proof
| [], memo => ([], ⟨true, memo, []⟩)
| goal :: rest, memo =>
    if goal.deep then
      let proof := w.prove record w.descent memo
      let (deeper, later) := w.descendFor record rest proof.memo
      (if proof.holds then goal :: deeper else deeper,
        ⟨proof.holds && later.holds, later.memo,
          proof.events ++ later.events⟩)
    else w.descendFor record rest memo

/- The goals to pursue below an entry, with the tests made. -/
def descend
    (w : Walker)
    (goals : List Goal)
    (record : Record) : List Goal × Proof :=
  if record.isDirectory then w.descendFor record goals []
  else ([], ⟨true, [], []⟩)

/-
  The tests on an entry for each goal that it meets, up to the
  first one that they let it through for: the finding.
-/
def examine
    (w : Walker) : List Goal → Record → Memo → Trace Nat
| [], _, _ => .empty
| goal :: rest, record, memo =>
    if goal.isMetBy record then
      let proof := w.prove record w.content memo
      let later : Trace Nat :=
        if proof.holds then ⟨[.found record], none⟩
        else w.examine rest record proof.memo
      ⟨proof.events, none⟩ ++ later
    else w.examine rest record memo

/-
  What happens at one entry, given the walk below a directory
  with the goals that are left there.
-/
def visit
    (w : Walker)
    (goals : List Goal)
    (below : List Goal → Record → Trace Nat)
    (record : Record) : Trace Nat :=
  let (deeper, proof) := w.descend goals record
  let down :=
    if deeper.isEmpty then .empty else below deeper record
  let found := w.examine goals record proof.memo
  let before : Trace Nat := ⟨proof.events, none⟩
  if w.childFirst then before ++ down ++ found
  else before ++ found ++ down

/- The directory lies deeper than the walk may go. -/
def isTooDeep (w : Walker) (subdirs : List String) : Bool :=
  match w.maxDepth with
  | some limit => decide (limit < subdirs.length)
  | none => false

/- Walk a directory, going down at most so many levels. -/
def traverse (w : Walker) (d : Disk) :
    (fuel : Nat) → String → List Goal → List String → Trace Nat
| 0, _, _, _ => .empty
| fuel + 1, directory, goals, subdirs =>
    if w.isTooDeep subdirs then .empty
    else
      match w.entries d directory (Path.joined subdirs) with
      | .error fault => w.unreadable directory fault
      | .ok records =>
          .concat (records.map (w.visit goals
            fun deeper record =>
              traverse w d fuel record.path deeper
                (subdirs ++ [record.name])))

/-
  No path that can be listed has more names than this: between
  two links it goes down the tree, and links are limited.
-/
def depthBound (d : Disk) : Nat :=
  (Disk.linkLimit + 2) * (d.nodes.length + 2)

/- Everything that a walk of a directory does. -/
def walk
    (w : Walker)
    (d : Disk)
    (directory : String)
    (goals : List Goal) : Trace Nat :=
  w.traverse d (depthBound d) directory goals []

end Walker

end Search

end SymbolAtlas
