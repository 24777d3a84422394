import SymbolAtlas.Data.Toml.Document
import SymbolAtlas.Desk
import SymbolAtlas.Settings.Layer

/-
  Loading the settings of a project.

  The settings are the usual ones, then what the user's file
  says, then the project's file, then the environment. A file
  that is not well formed says nothing, but that is told.

  Key definitions:
    * `Settings.tableAt`
    * `Settings.loadWithin`, `Settings.load`
-/

namespace SymbolAtlas

namespace Settings

/- Where the user's file of settings is. -/
def userFile (d : Disk) : String :=
  (Route.ofText d.home ++
    Route.ofText ".config/classmap/config.toml").text

/- Where the file of a project is. -/
def projectFile (project : String) : String :=
  (Route.ofText project ++
    Route.ofText ".classmap/config.toml").text

/- The table in a file, which may be missing. -/
def tableAt (path : String) : Desk.Work Datum := do
  match (← get).disk.read path with
  | .error _ => return .record []
  | .ok content =>
      match String.fromUTF8? content with
      | none => throw .notUtf8
      | some text =>
          match Toml.parse text with
          | .ok table => return table
          | .error complaint =>
              Desk.tell (.settingsIgnored path complaint.text)
              return .record []

/- What a file of settings says. -/
def layerAt (s : Settings) (room : Nat) (path : String) :
    Desk.Work Layer := do
  let table ← tableAt path
  Desk.liftError (Layer.ofTable s (← get).disk room table)

/-
  The settings of a project. A value that has to be shown may
  have so many levels of parts.
-/
def loadWithin
    (room : Nat)
    (project : String)
    (env : List (String × String)) :
    Desk.Work Settings := do
  let d := (← get).disk
  let root ← Desk.liftError (d.realPath project)
  let base : Settings := { projectDir := root }
  let user ← layerAt base room (userFile d)
  let own ← layerAt base room (projectFile project)
  let said ← Desk.liftError (Layer.ofVariables base d room env)
  return said.onto (own.onto (user.onto base))

/- The settings of a project, with the room there usually is. -/
def load
    (project : String)
    (env : List (String × String)) :
    Desk.Work Settings :=
  loadWithin Datum.usualRoom project env

end Settings

end SymbolAtlas
