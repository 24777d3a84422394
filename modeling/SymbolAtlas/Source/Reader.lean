import SymbolAtlas.Source.Grammar.Alternatives

/-
  Reading a source text with the grammar.

  A reader has a list of goals. A phrase in front of it stands
  for several lists, so one reader becomes several; those that
  want another terminal than the one that comes next give up.
  A source fits the grammar if a reader without goals is left
  when its end is reached.

  Key definitions:
    * `Reader`
    * `Reader.settle`, `Reader.shift`
    * `Reader.tokens?`
-/

------------------------------------------------------------
-- Readers
------------------------------------------------------------

namespace SymbolAtlas

/- Terminals that are read as one token. -/
structure Joint where
  kind : TokenKind
  /- What was read of it. -/
  text : Option String
deriving DecidableEq, Repr

/- One way to read a source up to some place. -/
structure Reader where
  goals : List Grammar.Goal
  /- The shape of the expression that ended last. -/
  shape : Grammar.Shape := .plain
  joint : Option Joint := none
  /- Terminals that may not come next. -/
  barred : List Terminal := []
  /- The tokens so far, the last one first. -/
  done : List Token := []

namespace Reader

/- The readers want the same from here on. -/
def isLike (a b : Reader) : Bool :=
  decide (a.goals = b.goals) && decide (a.shape = b.shape) &&
    decide (a.joint = b.joint)

/- Readers of which no two want the same. -/
def distinct : List Reader → List Reader
| [] => []
| r :: rest => r :: (distinct rest).filter (!isLike r ·)

/- The terminal that a reader wants next. -/
def wanted? (r : Reader) : Option Terminal :=
  match r.goals with
  | .read terminal _ :: _ => some terminal
  | _ => none

/- Terminals that were read as one token are complete. -/
def close (r : Reader) : Reader :=
  match r.joint with
  | some ⟨kind, some text⟩ =>
      { r with joint := none, done := ⟨kind, text⟩ :: r.done }
  | _ => { r with joint := none }

end Reader

end SymbolAtlas

------------------------------------------------------------
-- Settling
------------------------------------------------------------

namespace SymbolAtlas

namespace Reader

/-
  The readers that a reader can become before it reads the next
  terminal, in at most so many steps.
-/
def settle : (fuel : Nat) → Reader → List Reader
| 0, _ => []
| fuel + 1, r =>
    match r.goals with
    | [] => [r]
    | .read _ _ :: _ => [r]
    | .go phrase :: rest =>
        (Grammar.alternatives r.shape phrase).flatMap fun goals =>
          settle fuel { r with goals := goals ++ rest }
    | .join kind :: rest =>
        settle fuel
          { r with goals := rest, joint := some ⟨kind, none⟩ }
    | .joined :: rest => settle fuel { r.close with goals := rest }
    | .note shape :: rest =>
        settle fuel { r with goals := rest, shape := shape }
    | .bar terminals :: rest =>
        settle fuel
          { r with goals := rest, barred := terminals ++ r.barred }

/-
  Steps that are enough: phrases are not nested deeply, and
  each goal that is there can be dropped in a few steps.
-/
def enough (r : Reader) : Nat :=
  4 * r.goals.length + 50

/- The reader wants nothing that it may not have. -/
def isFree (r : Reader) : Bool :=
  match r.wanted? with
  | some terminal => !r.barred.contains terminal
  | none => true

/- All readers, before the next terminal. -/
def settled (readers : List Reader) : List Reader :=
  (readers.flatMap fun r => settle r.enough r).filter isFree

end Reader

end SymbolAtlas

------------------------------------------------------------
-- Reading Terminals
------------------------------------------------------------

namespace SymbolAtlas

namespace Trivia

/- The token of what stands between others. -/
def token? : Trivia → Option Token
| .blank _ => none
| .comment text => some ⟨.comment, text⟩
| other => some ⟨.other, other.text⟩

end Trivia

namespace Reader

/- Add tokens for what stands between others. -/
def pass (lead : List Trivia) (r : Reader) : Reader :=
  { r with done := (lead.filterMap Trivia.token?).reverse ++ r.done }

/- Add a token, unless nothing was read for it. -/
def emit (kind : TokenKind) (text : String) (r : Reader) : Reader :=
  if text.isEmpty then r
  else { r with done := ⟨kind, text⟩ :: r.done }

/- Read a text as a token of some kind, behind what leads to it. -/
def take (lead : List Trivia) (text : String) (kind : TokenKind)
    (r : Reader) : Reader :=
  match r.joint with
  | none => (r.pass lead).emit kind text
  | some ⟨whole, none⟩ =>
      { r.pass lead with joint := some ⟨whole, some text⟩ }
  | some ⟨whole, some before⟩ =>
      let gap := String.join (lead.map Trivia.text)
      { r with joint := some ⟨whole, some (before ++ gap ++ text)⟩ }

/- Read a terminal, if it is wanted. -/
def shift? (lead : List Trivia) (terminal : Terminal)
    (text : String) (r : Reader) : Option Reader :=
  match r.goals with
  | .read wanted kind :: rest =>
      if wanted = terminal then
        some (take lead text kind
          { r with goals := rest, barred := [] })
      else none
  | _ => none

/- Read a terminal with all readers that want it. -/
def shift (lead : List Trivia) (terminal : Terminal)
    (text : String) (readers : List Reader) : List Reader :=
  distinct (readers.filterMap (shift? lead terminal text))

end Reader

end SymbolAtlas

------------------------------------------------------------
-- Reading Texts
------------------------------------------------------------

namespace SymbolAtlas

namespace Reader

/- What a text goes on with: trivia, and possibly a terminal. -/
structure Next where
  parts : List Trivia
  terminal : Option (Terminal × String)
  rest : List Char

/- Blanks that are no terminals themselves. -/
def isGap (valid : List Terminal) (c : Char) : Bool :=
  Scan.isGap c &&
    !((valid.contains .lineEnd || valid.contains .rawLines) &&
      Scan.isLineEnd c)

/- A terminal that was found, behind trivia. -/
def Next.ofFound (parts : List Trivia) (text : List Char) :
    Option (Terminal × Nat) → Next
| some (terminal, length) =>
    ⟨parts, some (terminal, String.ofList (text.take length)),
      text.drop length⟩
| none => ⟨parts, none, text⟩

/- What comes next behind blanks. -/
def nextSolid (valid : List Terminal) (parts : List Trivia)
    (text : List Char) : Next :=
  let comment :=
    Scan.commentLength (valid.contains (.sign "#[")) text
  if comment != 0 then
    ⟨parts ++ [.comment (String.ofList (text.take comment))], none,
      text.drop comment⟩
  else
    match text with
    | '?' :: '>' :: rest =>
        let (around, code) := Scan.outside rest
        ⟨parts ++ .tag "?>" :: around, none, code⟩
    | _ => .ofFound parts text (Terminal.find? valid text)

/- What comes next, given the label that is open. -/
def next (label : List Char) (valid : List Terminal)
    (text : List Char) : Next :=
  match Terminal.special? label valid text with
  | some one => .ofFound [] text (some one)
  | none =>
      let gap := text.takeWhile (isGap valid)
      let blanks : List Trivia :=
        if gap.isEmpty then [] else [.blank (String.ofList gap)]
      nextSolid valid blanks (text.drop gap.length)

/- The labels that are open behind a terminal. -/
def labelsAfter (terminal : Terminal) (text : String)
    (labels : List (List Char)) : List (List Char) :=
  match terminal with
  | .label =>
      (text.toList.reverse.takeWhile Scan.isLabelChar).reverse ::
        labels
  | .labelAgain _ => labels.tail
  | _ => labels

/-
  The tokens of a text, in at most so many steps, given the
  labels that are open and what leads to the next terminal.
-/
def tokensFrom? : (fuel : Nat) → (labels : List (List Char)) →
    (lead : List Trivia) → List Reader → List Char →
    Option (List Token)
| 0, _, _, _, _ => none
| _ + 1, _, lead, readers, [] =>
    (readers.find? (·.goals.isEmpty)).map fun r =>
      (r.pass lead).done.reverse
| fuel + 1, labels, lead, readers, text =>
    let n := next (labels.headD []) (readers.filterMap wanted?) text
    match n.terminal with
    | some (terminal, found) =>
        tokensFrom? fuel (labelsAfter terminal found labels) []
          (settled (shift (lead ++ n.parts) terminal found readers))
          n.rest
    | none =>
        if n.parts.isEmpty then none
        else tokensFrom? fuel labels (lead ++ n.parts) readers n.rest

/- The reader of a whole source. -/
def start : Reader :=
  { goals := [.go (.many .statement)] }

/- The tokens of a source, if it fits the grammar. -/
def tokens? (text : List Char) : Option (List Token) :=
  let (parts, code) := Scan.outside text
  tokensFrom? (2 * text.length + 2) [] parts (settled [start]) code

end Reader

end SymbolAtlas
