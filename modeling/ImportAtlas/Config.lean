/-!
# Config — what may be chosen for a build
-/

namespace ImportAtlas

/-- What may be chosen for a build. -/
structure Config where
  /-- Names of directories that hold the code of others.  An import that leads through one of them
  is external, and a walk does not enter them. -/
  vendorDirs : List String := ["node_modules"]
  /-- The number of bytes that a module file may have. -/
  maxFileSize : Nat := 10485760
deriving DecidableEq, Repr, Inhabited

/-- Whether a directory of this name holds the code of others. -/
def Config.isVendorDir (config : Config) (name : String) : Bool := config.vendorDirs.contains name

end ImportAtlas
