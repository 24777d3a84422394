import SymbolAtlas.Console.Run

/-
  The command line program.

  The parts of the machine's disk that a command can ask about
  are read first. The command is run on them, and what it has
  changed is written back. All decisions are made in between.

  Key definitions:
    * `Machine.readTree`, `Machine.readPath`
    * `Machine.readFor`
    * `Machine.writeBack`
    * `main`
-/

------------------------------------------------------------
-- Reading the Disk
------------------------------------------------------------

namespace SymbolAtlas

namespace Machine

/- Nanoseconds. -/
def timeOf (t : IO.FS.SystemTime) : Int :=
  t.sec * 1000000000 + t.nsec.toNat

/- The node at a path of the machine, links not followed. -/
def nodeAt? (text : String) : IO (Option Node) := do
  let here ← IO.currentDir
  try
    let found ← (here / text).symlinkMetadata
    match found.type with
    | .dir => return some (.dir (timeOf found.modified))
    | .file =>
        return some (.file .empty (timeOf found.modified))
    | .symlink =>
        let target ←
          try
            return some (.link (← IO.FS.realPath text).toString)
          catch _ => pure (text ++ " leads nowhere")
        return some (.link target)
    | .other => return none
  catch _ => return none

/- The names in a directory, or nothing if it is not listed. -/
def namesAt? (text : String) : IO (Option (List String)) := do
  let here ← IO.currentDir
  try
    let entries ← (here / text).readDir
    return some (entries.toList.map fun entry => entry.fileName)
  catch _ => return none

/- A disk with one more node, if it is not there yet. -/
def withNode (d : Disk) (place : Place) (node : Node) : Disk :=
  if (d.nodes.lookup place).isSome then d else d.put place node

/- Read a node and all below it. -/
partial def readTree (d : Disk) (place : Place) : IO Disk := do
  let text := Disk.textOf place
  match ← nodeAt? text with
  | none => return d
  | some (.link target) =>
      let linked := withNode d place (.link target)
      if (linked.nodes.lookup (Route.ofText target).names).isSome
      then return linked
      else readTree linked (Route.ofText target).names
  | some (.file _ mtime) =>
      try
        let content ← IO.FS.readBinFile text
        return withNode d place (.file content mtime)
      catch _ => return withNode d place (.file .empty mtime)
  | some (.dir mtime) =>
      let made := withNode d place (.dir mtime)
      match ← namesAt? text with
      | none => return { made with denied := text :: made.denied }
      | some names =>
          names.foldlM
            (fun d name => readTree d (place ++ [name])) made

/- Read what is on the way to a place, up to the first link. -/
partial def readWay (d : Disk) (done : Place) :
    List String → IO Disk
  | [] => return d
  | name :: rest => do
      let place := done ++ [name]
      match ← nodeAt? (Disk.textOf place) with
      | some (.dir mtime) =>
          readWay (withNode d place (.dir mtime)) place rest
      | some (.link target) =>
          readWay (withNode d place (.link target)) []
            ((Route.ofText target).names ++ rest)
      | _ => return d

/- Read a path of the machine and all below it. -/
def readPath (d : Disk) (text : String) : IO Disk := do
  let start := if Path.isRooted text then [] else d.cwd
  let place := Disk.normalNames start (Path.names text)
  let ready ← readWay d [] place
  match ready.resolve (Disk.textOf place) with
  | .ok real => readTree ready (Route.ofText real).names
  | .error _ => return ready

end Machine

end SymbolAtlas

------------------------------------------------------------
-- What a Command Needs
------------------------------------------------------------

namespace SymbolAtlas

namespace Machine

/- The directory that a mask begins in. -/
def fixedPart (mask : String) : String :=
  let plain := mask.toList.takeWhile (!Glob.isMagic ·)
  let front := (plain.reverse.dropWhile (· != '/')).reverse
  if front.isEmpty then "." else String.ofList front

/- The paths that settings speak of. -/
def pathsIn (s : Settings) : List String :=
  s.roots ++ s.files ++ s.ignore ++ s.exclude ++
    [s.cacheDir.getD (Console.usualCache s)]

/- The project that a command is about. -/
def projectOf? (d : Disk) : Console.Command → Option String
| .rebuild t => some (t.project.getD (Disk.textOf d.cwd))
| .resolve t _ => some (t.project.getD (Disk.textOf d.cwd))
| .list t => some (t.project.getD (Disk.textOf d.cwd))
| .status t => some (t.project.getD (Disk.textOf d.cwd))
| .find _ => none

/- Read what settings speak of. -/
def readSettings
    (d : Disk)
    (project : String)
    (env : Console.Variables) : IO Disk := do
  let d ← readPath d (Settings.projectFile project)
  let d ← readPath d (Settings.userFile d)
  match Settings.load project env ⟨d, []⟩ with
  | .error _ _ => return d
  | .ok s _ =>
      (pathsIn s).foldlM (fun d path =>
        match d.expandHome (Route.ofText path) with
        | .ok route =>
            readPath d (Route.ofText s.projectDir ++ route).text
        | .error _ => return d) d

/- The directories that a search begins in. -/
def placesOf (h : Console.Hunt) : List String :=
  let dirs := h.fromDirs ++ h.inDirs
  let masks :=
    if dirs.isEmpty then h.masks
    else dirs.flatMap fun dir => h.masks.map (dir ++ "/" ++ ·)
  masks.map fixedPart

/- Read everything that a command can ask about. -/
def readFor
    (d : Disk)
    (command : Console.Command)
    (env : Console.Variables) : IO Disk :=
  match projectOf? d command, command with
  | some project, _ => readSettings d project env
  | none, .find h => (placesOf h).foldlM readPath d
  | none, _ => return d

end Machine

end SymbolAtlas

------------------------------------------------------------
-- Writing Back
------------------------------------------------------------

namespace SymbolAtlas

namespace Machine

/- Bring a node that has changed to the machine. -/
def writeNode (before : Option Node) (text : String) :
    Node → IO Unit
  | .dir _ =>
      if before.isNone then IO.FS.createDirAll text else return
  | .file content _ =>
      match before with
      | some (.file old _) =>
          if old.data == content.data then return
          else IO.FS.writeBinFile text content
      | _ => IO.FS.writeBinFile text content
  | .link _ => return

/- Bring what a command has changed to the machine. -/
def writeBack (before after : Disk) : IO Unit := do
  for (place, node) in after.nodes do
    writeNode (before.nodes.lookup place) (Disk.textOf place) node
  for (place, _) in before.nodes do
    if (after.nodes.lookup place).isNone then
      IO.FS.removeFile (Disk.textOf place)

/- The variables of the environment that matter. -/
def env : IO Console.Variables := do
  let names := ["ROOTS", "CACHE_DIR", "AUTO_REBUILD",
    "REPORT_PARSE_ERRORS", "LOG_LEVEL"].map Settings.variableName
  let values ← names.mapM fun name => do
    return (name, (← IO.getEnv name).getD "")
  return values

/- How the program is used. -/
def usage : String :=
  "Usage: classmap rebuild|resolve|list|find|status [OPTIONS]"

end Machine

end SymbolAtlas

------------------------------------------------------------
-- The Program
------------------------------------------------------------

open SymbolAtlas in
/- Run a command line and end with its status. -/
def main (arguments : List String) : IO UInt32 := do
  let here := (← IO.currentDir).toString
  let home := (← IO.getEnv "HOME").getD "/"
  let env ← Machine.env
  let start : Disk :=
    { cwd := (Route.ofText here).names, home := home }
  match Console.Command.ofArguments? arguments with
  | none =>
      IO.eprintln Machine.usage
      return UInt32.ofNat Console.usageStatus
  | some command =>
      let before ← Machine.readFor start command env
      let outcome := Console.execute before env arguments
      let after := outcome.console.desk
      IO.print outcome.console.output
      for line in Notice.lines after.notices do
        IO.eprintln line
      if let some error := outcome.error then
        IO.eprintln error.message
      Machine.writeBack before after.disk
      return UInt32.ofNat outcome.code
