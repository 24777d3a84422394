import SymbolAtlas.Disk.Locate
import SymbolAtlas.Mask.Item

/-
  Wildcards in the names of directories.

  A pattern is matched name by name against the disk. Names
  that start with a dot are met only by patterns that do. The
  classes of a pattern drop ranges that run backwards.

  Key definitions:
    * `Glob.items`, the items of a pattern for one name
    * `Glob.expand`
-/

------------------------------------------------------------
-- Classes
------------------------------------------------------------

namespace SymbolAtlas

namespace Glob

open Mask (CharRange CharSet Item)

/-
  The body of a class behind its bracket and what follows its
  closing bracket. A bracket in front, also behind the sign
  of negation, belongs to the body.
-/
def classBody? (text : List Char) :
    Option (List Char × List Char) :=
  let front :=
    match text with
    | '!' :: ']' :: _ => ['!', ']']
    | '!' :: _ => ['!']
    | ']' :: _ => [']']
    | _ => []
  let rest := text.drop front.length
  match rest.dropWhile (· != ']') with
  | _ :: after => some (front ++ rest.takeWhile (· != ']'), after)
  | [] => none

/-
  Cut a body at the dashes that make ranges. The count says
  how many characters are passed over first: one at the start,
  two behind a dash that made a range.
-/
def chunks : (passed : Nat) → List Char → List (List Char)
| _, [] => [[]]
| 0, '-' :: rest => [] :: chunks 2 rest
| passed, c :: rest =>
    match chunks (passed - 1) rest with
    | first :: others => (c :: first) :: others
    | [] => [[c]]

/- A dash at the very end is a member. -/
def closeLast : List (List Char) → List (List Char)
| [chunk, []] => [chunk ++ ['-']]
| chunk :: rest => chunk :: closeLast rest
| [] => []

/- Join chunks whose range runs backwards, from the right. -/
def mergeBackward : List (List Char) → List (List Char)
| [] => []
| chunk :: rest =>
    match mergeBackward rest with
    | next :: others =>
        match chunk.getLast?, next.head? with
        | some first, some last =>
            if last < first then
              (chunk.dropLast ++ next.drop 1) :: others
            else chunk :: next :: others
        | _, _ => chunk :: next :: others
    | [] => [chunk]

/-
  Chunks as ranges: neighbours meet in a range. A dash without
  a character before it is a member.
-/
def rangesFrom : (carried : List Char) → List (List Char) →
    List CharRange
| carried, [] => carried.map .single
| carried, next :: rest =>
    match carried.getLast?, next with
    | some first, last :: others =>
        carried.dropLast.map .single ++
          ⟨first, last⟩ :: rangesFrom others rest
    | _, _ => .single '-' :: rangesFrom next rest

/-
  The set of a class. The sign of negation is looked for when
  backward ranges are gone.
-/
def setOf (body : List Char) : CharSet :=
  let start := if body.head? == some '!' then 2 else 1
  match mergeBackward (closeLast (chunks start body)) with
  | ('!' :: first) :: rest => ⟨true, rangesFrom first rest⟩
  | first :: rest => ⟨false, rangesFrom first rest⟩
  | [] => ⟨false, []⟩

/- The items of a pattern for one name. -/
def itemsFrom : (fuel : Nat) → List Char → List Item
| 0, _ => []
| _, [] => []
| fuel + 1, '*' :: rest => .run :: itemsFrom fuel rest
| fuel + 1, '?' :: rest => .single :: itemsFrom fuel rest
| fuel + 1, '[' :: rest =>
    match classBody? rest with
    | some (body, after) =>
        .oneOf (setOf body) :: itemsFrom fuel after
    | none => .literal '[' :: itemsFrom fuel rest
| fuel + 1, c :: rest => .literal c :: itemsFrom fuel rest

def items (pattern : List Char) : List Item :=
  itemsFrom (pattern.length + 1) pattern

/- The name meets the pattern. -/
def meets (pattern : List Char) (name : String) : Bool :=
  Mask.acceptsAll (items pattern) name.toList

end Glob

end SymbolAtlas

------------------------------------------------------------
-- Expansion
------------------------------------------------------------

namespace SymbolAtlas

namespace Glob

/- The characters that make a text a pattern. -/
def isMagic (c : Char) : Bool :=
  c == '*' || c == '?' || c == '['

def hasMagic (text : List Char) : Bool :=
  text.any isMagic

/-
  A pattern cut at its last slash. The front part loses the
  slashes at its end, unless it has nothing else.
-/
def split (text : List Char) : List Char × List Char :=
  let name := (text.reverse.takeWhile (· != '/')).reverse
  let front := text.take (text.length - name.length)
  let bare := (front.reverse.dropWhile (· == '/')).reverse
  (if bare.isEmpty then front else bare, name)

/- The names of a directory that a search may go on with. -/
def namesIn (d : Disk) (directory : String) (onlyDirs : Bool) :
    List String :=
  let path := if directory.isEmpty then "." else directory
  match d.list path with
  | .error _ => []
  | .ok names =>
      if onlyDirs then
        names.filter fun name =>
          d.isDirectory (Path.child path name)
      else names

def isHidden (name : List Char) : Bool :=
  name.head? == some '.'

/- The names in a directory that meet a pattern. -/
def matching
    (d : Disk)
    (directory : String)
    (pattern : List Char)
    (onlyDirs : Bool) : List String :=
  let names := namesIn d directory onlyDirs
  let shown :=
    if isHidden pattern then names
    else names.filter (!isHidden ·.toList)
  shown.filter (meets pattern)

/- A plain name in a directory, if something is there. -/
def literal
    (d : Disk)
    (directory : String)
    (name : List Char) : List String :=
  let text := String.ofList name
  if name.isEmpty then
    if d.isDirectory directory then [text] else []
  else
    let path :=
      if directory.isEmpty then text else Path.child directory text
    if d.isPresent path then [text] else []

/- The paths that meet a pattern, slash by slash. -/
def expandFrom (d : Disk) :
    (fuel : Nat) → List Char → (onlyDirs : Bool) → List String
| 0, _, _ => []
| fuel + 1, pattern, onlyDirs =>
    let (front, name) := split pattern
    let directory := String.ofList front
    if !hasMagic pattern then
      let here :=
        if name.isEmpty then d.isDirectory directory
        else d.isPresent (String.ofList pattern)
      if here then [String.ofList pattern] else []
    else if front.isEmpty then matching d "" name onlyDirs
    else
      let directories :=
        if front != pattern && hasMagic front then
          expandFrom d fuel front true
        else [directory]
      directories.flatMap fun dir =>
        let names :=
          if hasMagic name then matching d dir name onlyDirs
          else literal d dir name
        names.map (Path.child dir)

/- The paths on the disk that meet a pattern. -/
def expand (d : Disk) (pattern : String) : List String :=
  let chars := pattern.toList
  expandFrom d (chars.length + 1) chars false

end Glob

end SymbolAtlas
