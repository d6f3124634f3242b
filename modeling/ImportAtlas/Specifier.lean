import ImportAtlas.ModuleId

/-!
# Specifier — what the source of an import names

A relative specifier names a file as seen from the importing one; any other names a package.
-/

namespace ImportAtlas

/-- Whether the specifier names a file: as seen from the importing file, or from the root. -/
def isRelative (specifier : String) : Bool :=
  let s := specifier.toList
  s == ['.'] || s == ['.', '.'] || ['.', '/'].isPrefixOf s || ['.', '.', '/'].isPrefixOf s ||
    ['/'].isPrefixOf s

/-- The path that a specifier names, before any file is looked for. -/
def candidatePath (importer : Path) (specifier : String) : Path :=
  (importer.parent.join ⟨specifier⟩).clean

/-- The number of components that two paths have in common from the start. -/
def sharedLength (a b : List Path.Component) : Nat :=
  ((a.zip b).takeWhile fun (x, y) => x == y).length

/-- **Whether a path leads into one of the vendor directories** from where the importing file
stands.  The components that it shares with the directory of that file do not count. -/
def isVendored (importer candidate : Path) (vendorDirs : List String) : Bool :=
  let steps := candidate.components
  (steps.drop (sharedLength importer.parent.components steps)).any fun
    | .name text => vendorDirs.contains text
    | _ => false

end ImportAtlas
