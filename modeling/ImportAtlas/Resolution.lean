import ImportAtlas.BuildError
import ImportAtlas.Specifier

/-!
# Resolution — which file an import leads to

A specifier that names a package, or leads into a vendor directory, is external.  Any other names a
module file by its extension, and then the disk is not asked; or the first file among its probes.
-/

namespace ImportAtlas

/-- What an import leads to. -/
inductive Resolution
  | file (target : ModuleId)
  | external (specifier : String)
deriving DecidableEq, Repr, Inhabited

/-- The index files of a directory, in the order they are tried. -/
def indexFiles (dir : Path) : List Path :=
  probeExtensions.map fun extension => dir.child ("index." ++ extension)

/-- The path with each of the extensions behind it, in the order they are tried. -/
def extended (p : Path) : List Path := probeExtensions.map p.appendExtension

/-- The paths that are looked up, at most, to find out what a specifier leads to. -/
def lookedUp (importer : Path) (specifier : String) : List Path :=
  let candidate := candidatePath importer specifier
  if isRelative specifier then candidate :: indexFiles candidate ++ extended candidate else []

namespace FileSystem

/-- The first index file of a directory. -/
def indexFile? (fs : FileSystem) (dir : Path) : Option Path := (indexFiles dir).find? fs.isFile

/-- The first file that is the path with an extension behind it. -/
def extendedFile? (fs : FileSystem) (p : Path) : Option Path := (extended p).find? fs.isFile

/-- The files that a path may mean, in the order they are tried: the index files if it is a
directory, then the path with an extension behind it, then the path itself if it has one. -/
def probes (fs : FileSystem) (p : Path) : List Path :=
  (if fs.isDir p then indexFiles p else []) ++ extended p ++
    (if p.extension?.isSome then [p] else [])

/-- **What a specifier leads to** as seen from a file. -/
def resolve (fs : FileSystem) (vendorDirs : List String) (importer : Path) (specifier : String) :
    Except BuildError Resolution :=
  let candidate := candidatePath importer specifier
  if !isRelative specifier || isVendored importer candidate vendorDirs then
    .ok (.external specifier)
  else if candidate.isModuleFile then .ok (.file (.ofPath candidate))
  else match (fs.probes candidate).find? fs.isFile with
    | some found => .ok (.file (.ofPath found))
    | none => .error (.moduleNotFound candidate specifier importer)

end FileSystem

end ImportAtlas
