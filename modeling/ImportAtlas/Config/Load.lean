import ImportAtlas.Config
import ImportAtlas.Config.Environment
import ImportAtlas.FileSystem.Basic
import ImportAtlas.Toml.Document

/-!
# Config/Load — the configuration from a file and from variables

Each field has the value of the last layer that gives it: the defaults, a file, variables.  Only the
values that are left in the end have to be of the right kind.
-/

namespace ImportAtlas

/-- Why there is no configuration. -/
inductive ConfigError
  | notFound (path : Path)
  | invalid
deriving DecidableEq, Repr, Inhabited

/-- The text of the error. -/
def ConfigError.message : ConfigError → String
  | notFound path => s!"config file not found: {path}"
  | invalid => "invalid configuration: <detail>"

namespace Config

/-- The file that is read if no other is named. -/
def defaultFile : Path := ⟨"modtree.toml"⟩

/-- What the names of variables start with. -/
def variableStem : String := "MODTREE_"

/-- The setting of a field: the last one that is given. -/
def lastSetting? (settings : List (String × Setting)) (field : String) : Option Setting :=
  settings.reverse.lookup field

/-- A field of the configuration: the default if there is no setting for it, and nothing if the
setting is not of the right kind. -/
def field? {α : Type} (settings : List (String × Setting)) (name : String)
    (read : Setting → Option α) (default : α) : Option α :=
  match lastSetting? settings name with
  | none => some default
  | some setting => read setting

/-- The configuration that settings give, the later ones before the earlier ones. -/
def ofSettings? (settings : List (String × Setting)) : Option Config :=
  let defaults : Config := {}
  match field? settings "vendor_dirs" Setting.texts? defaults.vendorDirs,
      field? settings "max_file_size" Setting.word? defaults.maxFileSize with
  | some vendorDirs, some maxFileSize => some ⟨vendorDirs, maxFileSize⟩
  | _, _ => none

/-- The places where a file is looked for: a relative path counts from the working directory, and
then from the directories above it.  It leads nowhere if there is no working directory. -/
def places (workingDir : Option Path) (p : Path) : List Path :=
  if p.isAbsolute then [p]
  else workingDir.elim [] fun dir => (dir.ancestors ++ [dir]).reverse.map fun above => above.join p

/-- The settings of a file that is there.  What is no file gives none. -/
def settingsAt (fs : FileSystem) (p : Path) : Except ConfigError (List (String × Setting)) :=
  match (places fs.workingDir.toOption p).find? fs.isFile with
  | none => .ok []
  | some file =>
    match (fs.contents file).toOption.bind fun bytes =>
        (String.fromUTF8? bytes).bind Toml.parse with
    | some settings => .ok settings
    | none => .error .invalid

/-- The settings of the file that is named, or else of the default one if it is there. -/
def fileSettings (fs : FileSystem) (file : Option Path) :
    Except ConfigError (List (String × Setting)) :=
  match file with
  | some p => if fs.isPresent p then settingsAt fs p else .error (.notFound p)
  | none => if fs.isPresent defaultFile then settingsAt fs defaultFile else .ok []

/-- **The configuration** from a file and from variables. -/
def load (fs : FileSystem) (environment : List (String × String)) (file : Option Path) :
    Except ConfigError Config :=
  match fileSettings fs file with
  | .error e => .error e
  | .ok settings =>
    match ofSettings? (settings ++ Environment.settings variableStem environment) with
    | some config => .ok config
    | none => .error .invalid

end Config

end ImportAtlas
