import SymbolAtlas.Error
import SymbolAtlas.Mask.Reading
import SymbolAtlas.Path.Text

/-
  Masks: glob patterns over relative paths.

  A mask of one star accepts every path. A mask that starts
  with `./` is matched against the whole path, any other one
  against the path from its start or from behind some slash.

  Key definitions:
    * `Mask`, `Mask.compile`
    * `Mask.accepts`
-/

namespace SymbolAtlas

/- Where in a path the items of a mask may start. -/
inductive MaskPattern where
  | everything
  | anchored (items : List Mask.Item)
  | floating (items : List Mask.Item)
deriving DecidableEq, Repr

/- A mask as it was written, and what it means. -/
structure Mask where
  text : String
  pattern : MaskPattern
deriving DecidableEq, Repr

namespace Mask

/- The items of a mask text, if its classes are sound. -/
def items? (text : List Char) : Option (List Item) :=
  readItems .outside (marks text)

/- The pattern of a mask text that has forward slashes only. -/
def pattern? : List Char → Option MaskPattern
| ['*'] => some .everything
| '.' :: '/' :: rest => (items? rest).map .anchored
| text => (items? text).map .floating

/- Read a mask. -/
def compile (text : String) : Except Error Mask :=
  match pattern? (Path.withSlashes text).toList with
  | some pattern => .ok ⟨text, pattern⟩
  | none => .error (.invalidMask text)

/- The text itself and its parts behind a slash. -/
def starts (text : List Char) : List (List Char) :=
  text :: behindSlashes text
where
  behindSlashes : List Char → List (List Char)
  | [] => []
  | c :: rest =>
      if c = '/' then rest :: behindSlashes rest
      else behindSlashes rest

/- The pattern accepts a path with forward slashes. -/
def acceptsText : MaskPattern → List Char → Bool
| .everything, _ => true
| .anchored items, path => acceptsAll items path
| .floating items, path => (starts path).any (acceptsAll items)

/- The mask accepts a relative path. -/
def accepts (mask : Mask) (path : String) : Bool :=
  acceptsText mask.pattern (Path.withSlashes path).toList

/- The mask was written as one star. -/
def acceptsEverything (mask : Mask) : Bool :=
  mask.pattern == .everything

end Mask

end SymbolAtlas
