import ImportAtlas.Binding
import ImportAtlas.ModuleId

/-!
# ImportRecord — all that one module imports from another

Several statements may import from the same file; they share one record.
-/

namespace ImportAtlas

/-- All that a module imports from one file. -/
structure ImportRecord where
  /-- The spellings of the source, each once, in the order they are first written. -/
  specifiers : List String
  /-- Whether the other module imports this one as well; known once the modules are linked. -/
  isMutual : Bool
  /-- The other module, once it is known to be among those that were read. -/
  resolved : Option ModuleId
  /-- What all statements bind, in the order they are written. -/
  bindings : List Binding
deriving DecidableEq, Repr, Inhabited

namespace ImportRecord

/-- The record of a first statement that binds nothing. -/
def ofSpecifier (specifier : String) : ImportRecord := ⟨[specifier], false, none, []⟩

/-- The record of a first statement. -/
def ofStatement (specifier : String) (bindings : List Binding) : ImportRecord :=
  { ofSpecifier specifier with bindings := bindings }

/-- The spelling of the first statement. -/
def firstSpecifier (r : ImportRecord) : String := r.specifiers.headD ""

/-- Adds another statement that imports from the same file. -/
def addStatement (r : ImportRecord) (specifier : String) (bindings : List Binding) :
    ImportRecord :=
  { r with
    specifiers :=
      if r.specifiers.contains specifier then r.specifiers else r.specifiers ++ [specifier]
    bindings := r.bindings ++ bindings }

/-- Whether the other module is known. -/
def isLinked (r : ImportRecord) : Bool := r.resolved.isSome

end ImportRecord

end ImportAtlas
