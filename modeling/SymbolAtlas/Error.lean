import SymbolAtlas.Text.Quoted

/-
  Everything that can go wrong, and how it is told.

  A `Fault` is what a disk refuses, a `DiskFailure` says for
  which path. An `Error` is what an operation of this library
  ends with; `Error.message` is its wording and `Error.family`
  the kind of trouble it belongs to.

  Key definitions:
    * `Fault`, `DiskFailure`
    * `Error`, `Error.message`, `Error.family`
    * `Error.reason`
-/

------------------------------------------------------------
-- Disk Failures
------------------------------------------------------------

namespace SymbolAtlas

/- The reasons for which a disk refuses an operation. -/
inductive Fault where
  | noEntry
  | notPermitted
  | alreadyThere
  | notDirectory
  | isDirectory
  | tooManyLinks
  | notEmpty
  | badArgument
deriving DecidableEq, Repr

namespace Fault

/- The number of the fault among POSIX error numbers. -/
def number : Fault → Nat
| .noEntry => 2
| .notPermitted => 13
| .alreadyThere => 17
| .notDirectory => 20
| .isDirectory => 21
| .badArgument => 22
| .notEmpty => 39
| .tooManyLinks => 40

def text : Fault → String
| .noEntry => "No such file or directory"
| .notPermitted => "Permission denied"
| .alreadyThere => "File exists"
| .notDirectory => "Not a directory"
| .isDirectory => "Is a directory"
| .badArgument => "Invalid argument"
| .notEmpty => "Directory not empty"
| .tooManyLinks => "Too many levels of symbolic links"

end Fault

/- A fault and the path it was met at, or the two of a move. -/
structure DiskFailure where
  fault : Fault
  path : String
  movedTo : Option String := none
deriving DecidableEq, Repr

namespace DiskFailure

def message (failure : DiskFailure) : String :=
  let target :=
    match failure.movedTo with
    | some path => " -> " ++ Quoted.ofText path
    | none => ""
  "[Errno " ++ toString failure.fault.number ++ "] " ++
    failure.fault.text ++ ": " ++ Quoted.ofText failure.path ++
    target

end DiskFailure

end SymbolAtlas

------------------------------------------------------------
-- Errors
------------------------------------------------------------

namespace SymbolAtlas

/- What an operation can end with instead of a result. -/
inductive Error where
  | invalidMask (mask : String)
  | invalidDirectory (path : String)
  | maskAndLocation (mask location : String)
  | noDirectory (path : String)
  | noRoot (root : String)
  | directoryNotCreated (path : String) (mode : Nat) (fault : Fault)
  | noCacheDirectory
  | notStrings (setting : String)
  | notBoolean (setting shown : String)
  | malformedSource (path : Option String) (line : Option Nat)
  | unreadableSource (path : String) (failure : DiskFailure)
  | ambiguous (symbol first second : String)
  | unlistable (directory : String) (failure : DiskFailure)
  | lockNotOpened (path : String) (failure : DiskFailure)
  | artifactNotWritten (path : String) (failure : DiskFailure)
  | linkLoop
  | unknownHome
  | nullCharacter
  | notUtf8
  | tooDeep
  | infiniteNumber
  | longNumber
  | notSnapshot
  | malformedSnapshot
  | notWhole (text : String)
  | diskFailure (failure : DiskFailure)
  | unmatchedTag
  | unreadHandler
  | noColour
deriving DecidableEq, Repr

/- The kinds of trouble. -/
inductive ErrorFamily where
  | settings
  | source
  | ambiguity
  | listing
  | cache
  | snapshot
  | environment
  | wording
deriving DecidableEq, Repr

namespace Error

def family : Error → ErrorFamily
| .invalidMask _ => .settings
| .invalidDirectory _ => .settings
| .maskAndLocation _ _ => .settings
| .noDirectory _ => .settings
| .noRoot _ => .settings
| .directoryNotCreated _ _ _ => .settings
| .noCacheDirectory => .settings
| .notStrings _ => .settings
| .notBoolean _ _ => .settings
| .malformedSource _ _ => .source
| .unreadableSource _ _ => .source
| .ambiguous _ _ _ => .ambiguity
| .unlistable _ _ => .listing
| .lockNotOpened _ _ => .cache
| .artifactNotWritten _ _ => .cache
| .longNumber => .snapshot
| .notSnapshot => .snapshot
| .malformedSnapshot => .snapshot
| .notWhole _ => .snapshot
| .linkLoop => .environment
| .unknownHome => .environment
| .nullCharacter => .environment
| .notUtf8 => .environment
| .tooDeep => .environment
| .infiniteNumber => .environment
| .diskFailure _ => .environment
| .unmatchedTag => .wording
| .unreadHandler => .wording
| .noColour => .wording

/-
  A command reports the errors of this library's own domain
  and lets those of its environment and its wording through.
-/
def isReported (error : Error) : Bool :=
  match error.family with
  | .environment => false
  | .snapshot => false
  | .wording => false
  | _ => true

/- How a source without a path is called. -/
def sourceName : Option String → String
| none => "<source>"
| some path => if path.isEmpty then "<source>" else path

/- A number in octal digits. -/
def octal (n : Nat) : String :=
  String.ofList (Nat.toDigits 8 n)

def message : Error → String
| .invalidMask mask => "Invalid mask '" ++ mask ++ "'"
| .invalidDirectory path => "Invalid directory '" ++ path ++ "'"
| .maskAndLocation mask location =>
    "You cannot combine the absolute path in the mask '" ++
      mask ++ "' and the directory to search '" ++ location ++
      "'."
| .noDirectory path =>
    "Directory '" ++ path ++ "' does not exist."
| .noRoot root =>
    "File or directory '" ++ root ++ "' not found."
| .directoryNotCreated path mode fault =>
    "Unable to create directory '" ++ path ++ "' with mode " ++
      octal mode ++ ". " ++ fault.text
| .noCacheDirectory =>
    "Set the cache directory (cache_dir or " ++
      "CLASSMAP_CACHE_DIR) first."
| .notStrings setting =>
    "Setting '" ++ setting ++
      "' must be a string or a list of strings."
| .notBoolean setting shown =>
    "Setting '" ++ setting ++ "' must be a boolean, got " ++
      shown ++ "."
| .malformedSource path line =>
    let place :=
      match line with
      | some n => " on line " ++ toString n
      | none => ""
    "Syntax error in " ++ sourceName path ++ place
| .unreadableSource path failure =>
    "Cannot read " ++ path ++ ": " ++ failure.message
| .ambiguous symbol first second =>
    "Ambiguous symbol " ++ symbol ++
      " resolution; defined in " ++ first ++ " and in " ++
      second ++ "."
| .unlistable directory failure =>
    "Unable to read directory '" ++ directory ++ "': " ++
      failure.message
| .lockNotOpened path failure =>
    "Unable to create file '" ++ path ++ "'. " ++
      failure.message
| .artifactNotWritten path failure =>
    "Unable to create '" ++ path ++ "'. " ++ failure.message
| .linkLoop => "Symbolic links lead back to themselves."
| .unknownHome => "Could not determine home directory."
| .nullCharacter => "A path holds a null character."
| .notUtf8 => "The text is not UTF-8."
| .tooDeep => "Parts are nested too deep."
| .infiniteNumber => "An infinite number has no integer part."
| .longNumber => "A number has too many digits to be written."
| .notSnapshot => "not a classmap snapshot"
| .malformedSnapshot => "malformed classmap snapshot"
| .notWhole _ => "malformed classmap snapshot"
| .diskFailure failure => failure.message
| .unmatchedTag => "A tag ends what was not begun."
| .unreadHandler => "A tag calls what cannot be read."
| .noColour => "A part of a mixed colour is no number."

/- Characters of a text that are quoted where it is no number. -/
def quotedLimit : Nat := 200

/- The message with what led to it, as a notice tells it. -/
def reason : Error → String
| .notWhole text =>
    (Error.notWhole text).message ++
      ": invalid literal for int() with base 10: " ++
      String.ofList ((Quoted.ofText text).toList.take quotedLimit)
| other => other.message

end Error

end SymbolAtlas
