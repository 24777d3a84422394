import SymbolAtlas.Console.Arguments
import SymbolAtlas.Console.Table
import SymbolAtlas.Loader
import SymbolAtlas.Settings.Load

/-
  The console: what commands print and how they end.

  A command prints lines on a screen of two hundred columns and
  ends with a status. It reports the errors of its own domain
  and lets others through.

  Key definitions:
    * `Console`, `Console.Work`, `Console.Stop`
    * `Console.printText`, `Console.printLines`
    * `Console.report`
-/

------------------------------------------------------------
-- State
------------------------------------------------------------

namespace SymbolAtlas

/- A desk and what was printed, in lines. -/
structure Console where
  desk : Desk
  printed : List String := []

namespace Console

/- A command ends early with a status, or with an error. -/
inductive Stop where
  | status (code : Nat)
  | crash (error : Error)
deriving DecidableEq, Repr

/- Work at the console. -/
abbrev Work := EStateM Stop Console

/- The columns of the screen. -/
def columns : Nat := 200

end Console

end SymbolAtlas

------------------------------------------------------------
-- Printing
------------------------------------------------------------

namespace SymbolAtlas

namespace Console

def printLines (lines : List (List Char)) : Work Unit :=
  modify fun c =>
    { c with printed := c.printed ++ lines.map String.ofList }

/- Print a text with tags, on as many lines as it needs. -/
def printMarkup (text : String) : Work Unit :=
  match Markup.plain text with
  | .ok plain => printLines (Screen.wrap .fold columns plain)
  | .error error => throw (.crash error)

/-
  Print a text with its tags, however long its lines are. Only
  the names of pictures are replaced.
-/
def printText (text : String) : Work Unit :=
  printLines (Screen.lines
    (String.ofList (Emoji.replaced text.toList)))

def printTable (t : Table) : Work Unit :=
  printLines (t.render columns)

def printPanel (p : Panel) : Work Unit :=
  printLines (p.render columns)

/- Everything printed, each line with its end. -/
def output (c : Console) : String :=
  String.join (c.printed.map (· ++ "\n"))

end Console

end SymbolAtlas

------------------------------------------------------------
-- Errors
------------------------------------------------------------

namespace SymbolAtlas

namespace Console

/- Report what went wrong and end. -/
def refuse {α : Type} (message : String) (hint : Option String) :
    Work α := do
  printMarkup ("[bold red]Error:[/bold red] " ++ message)
  match hint with
  | some text => printMarkup (Notice.dimmed ("Hint: " ++ text))
  | none => pure ()
  throw (.status 1)

/- The value of some work, whose errors are reported. -/
def report {α : Type} (result : Except Error α) : Work α :=
  match result with
  | .ok value => pure value
  | .error error =>
      if error.isReported then refuse error.message none
      else throw (.crash error)

/- The value of some work, whose errors are let through. -/
def expose {α : Type} (result : Except Error α) : Work α :=
  match result with
  | .ok value => pure value
  | .error error => throw (.crash error)

/- Work on the desk, with its result. -/
def onDesk {α : Type} (w : Desk.Work α) :
    Work (Except Error α) := fun c =>
  match w c.desk with
  | .ok value desk => .ok (.ok value) { c with desk := desk }
  | .error error desk =>
      .ok (.error error) { c with desk := desk }

/- Work with a loader, which is closed afterwards. -/
def withLoader
    {α : Type}
    (s : Settings)
    (w : Loader.Work α) : Work (Except Error α) :=
  onDesk do
    let loader ← Loader.start s
    let keep (after : Loader) : Desk.Work Unit :=
      modify fun desk =>
        ⟨after.desk.disk, desk.notices ++ after.desk.notices⟩
    match Loader.thenClose w loader with
    | .ok value after =>
        keep after
        return value
    | .error error after =>
        keep after
        throw error

end Console

end SymbolAtlas
