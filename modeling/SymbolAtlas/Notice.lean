import SymbolAtlas.Error
import SymbolAtlas.Text.Markup
import SymbolAtlas.Text.Screen

/-
  Notices: what the library tells on the side.

  A notice is kept as what happened and worded at the end. Its
  wording passes through markup, so that what looks like a tag
  in a path is not shown, and may even be an error. Reasons that
  an artifact or a file of settings cannot be used pass through
  it too, but are not listed.

  Key definitions:
    * `Notice`, `Notice.text`
    * `Notice.check`
    * `Notice.lines`
-/

namespace SymbolAtlas

/- What can be told while work goes on. -/
inductive Notice where
  | indexed (symbols files : Nat)
  | updated (file : String) (symbols : Nat)
  | skipped (path message : String)
  | settingsIgnored (path reason : String)
  | cacheHit (path : String)
  | waiting (lock : String)
  | building (path : String)
  | unusable (path reason : String)
deriving DecidableEq, Repr

namespace Notice

/- A text that is shown dimly. -/
def dimmed (text : String) : String :=
  "[dim]" ++ text ++ "[/dim]"

/- The wording of a notice, with tags. -/
def wording : Notice → String
| .indexed symbols files =>
    "[green]Indexer[/green] indexed [bold]" ++ toString symbols ++
      "[/bold] symbols across [bold]" ++ toString files ++
      "[/bold] files"
| .updated file symbols =>
    dimmed ("Indexer updated " ++ file ++ " (" ++
      toString symbols ++ " symbols)")
| .skipped path message =>
    "[yellow]Warning[/yellow]: Skipping " ++ path ++ ": " ++ message
| .settingsIgnored path reason =>
    "[yellow]Warning:[/yellow] Could not parse " ++ path ++ ": " ++
      reason
| .cacheHit path => dimmed ("Cache hit " ++ path)
| .waiting lock => dimmed ("Waiting for lock " ++ lock)
| .building path => dimmed ("Cache " ++ path ++ " missing, building")
| .unusable path reason =>
    dimmed ("Cache " ++ path ++ " unusable: " ++ reason)

/- A notice as it is shown. -/
def text (n : Notice) : Except Error String :=
  Markup.plain n.wording

/- The notice can be shown, or else there is an error. -/
def check (n : Notice) : Except Error Unit :=
  n.text.map fun _ => ()

/- A notice without the reason that a reader of data gave. -/
def brief (n : Notice) : Except Error String :=
  match n with
  | .unusable path _ =>
      Markup.plain ("[dim]Cache " ++ path ++ " unusable")
  | .settingsIgnored path _ =>
      Markup.plain
        ("[yellow]Warning:[/yellow] Could not parse " ++ path)
  | other => other.text

/- The lines of a list of notices that are not empty. -/
def lines (notices : List Notice) : List String :=
  let shown := notices.filterMap fun notice => notice.brief.toOption
  (shown.flatMap fun text =>
    (Screen.lines text).map String.ofList).filter (!·.isEmpty)

end Notice

end SymbolAtlas
