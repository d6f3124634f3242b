import ImportAtlas.FileSystem.Basic

/-!
# BuildError — why a build fails
-/

namespace ImportAtlas

/-- Why a file is not a module text. -/
inductive ParseFault
  | unsupportedExtension
  | malformed
deriving DecidableEq, Repr, Inhabited

/-- The text of the fault. -/
def ParseFault.message : ParseFault → String
  | unsupportedExtension => "unsupported file extension"
  | malformed => "<syntax>"

/-- Why a build fails. -/
inductive BuildError
  /-- An import names no file. -/
  | moduleNotFound (path : Path) (specifier : String) (importer : Path)
  | notADirectory (path : Path)
  | parse (path : Path) (fault : ParseFault)
  | unreadable (path : Path) (source : FsError)
  | fileTooLarge (path : Path) (size max : Nat)
  | invalidUtf8 (path : Path)
  /-- The disk refuses to answer. -/
  | fileSystem (source : FsError)
deriving DecidableEq, Repr, Inhabited

namespace BuildError

/-- The text of the error. -/
def message : BuildError → String
  | moduleNotFound path specifier importer =>
    s!"module not found: '{specifier}' imported from '{importer}' (tried '{path}')"
  | notADirectory path => s!"not a directory: {path}"
  | parse path fault => s!"failed to parse '{path}': {fault.message}"
  | unreadable path source => s!"failed to read file '{path}': {source.message}"
  | fileTooLarge path size max => s!"file too large: {path} is {size} bytes (max: {max} bytes)"
  | invalidUtf8 path => s!"file is not valid UTF-8: {path}"
  | fileSystem source => source.message

/-- The file that the error is about. -/
def path? : BuildError → Option Path
  | moduleNotFound path _ _ | notADirectory path | parse path _ | unreadable path _
  | fileTooLarge path _ _ | invalidUtf8 path => some path
  | fileSystem _ => none

end BuildError

end ImportAtlas
