import ImportAtlas.ExportRecord
import ImportAtlas.ImportRecord
import ImportAtlas.OrderedMap

/-!
# Leaf — what is known about one module
-/

namespace ImportAtlas

/-- What is known about one module: its imports by the file that they lead to, and its exports. -/
structure Leaf where
  id : ModuleId
  dialect : Dialect
  imports : OrderedMap ModuleId ImportRecord
  exports : List ExportRecord
deriving DecidableEq, Repr, Inhabited

namespace Leaf

/-- A module that imports and exports nothing. -/
def bare (id : ModuleId) (dialect : Dialect) : Leaf := ⟨id, dialect, .empty, []⟩

/-- What the module imports from a file. -/
def importOf? (leaf : Leaf) (target : ModuleId) : Option ImportRecord := leaf.imports.get? target

/-- The modules that this one imports and that import it as well. -/
def mutualReferences (leaf : Leaf) : List ModuleId :=
  (leaf.imports.entries.filter fun e => e.2.isMutual).map Prod.fst

end Leaf

end ImportAtlas
