import ImportAtlas.Dialect
import ImportAtlas.Path

/-!
# ModuleId — the identity of a module

A module is identified by the clean spelling of its path, so that all spellings of one path name
the same module.  Links on the disk are not followed.
-/

namespace ImportAtlas

/-- The identity of a module. -/
structure ModuleId where
  path : Path
deriving DecidableEq, Repr, Inhabited, Hashable

namespace ModuleId

instance : ToString ModuleId := ⟨fun m => m.path.text⟩

/-- The module at a path. -/
def ofPath (p : Path) : ModuleId := ⟨p.clean⟩

/-- The module at a path that is seen from a directory. -/
def ofRelative (base p : Path) : ModuleId := ofPath (base.join p)

/-- Where the module is: the components of its path, which are the same in all spellings of it. -/
def place (m : ModuleId) : List Path.Component := m.path.components

/-- The extension in lower case. -/
def extension? (m : ModuleId) : Option String := m.path.extension?.map Dialect.lowerCase

end ModuleId

/-- The dialect of a file, if it is a module. -/
def Path.dialect? (p : Path) : Option Dialect := p.extension?.bind Dialect.ofExtension?

/-- Whether a file is a module, by its extension. -/
def Path.isModuleFile (p : Path) : Bool := p.dialect?.isSome

end ImportAtlas
