/-!
# Binding — one clause of an import statement

An import statement binds names of another module: one of its exports, its default export, or all
of it at once.
-/

namespace ImportAtlas

/-- One clause of an import statement and the local name it introduces. -/
inductive Binding
  /-- An export of the other module, by its name there. -/
  | named (imported localName : String)
  /-- The default export of the other module. -/
  | default (localName : String)
  /-- Everything that the other module exports, as one object. -/
  | namespace (localName : String)
deriving DecidableEq, Repr, Inhabited

namespace Binding

/-- The name that the clause introduces in the importing module. -/
def localName : Binding → String
  | named _ l | default l | «namespace» l => l

/-- The name that the other module exports; only a named clause gives one. -/
def imported? : Binding → Option String
  | named i _ => some i
  | _ => none

end Binding

end ImportAtlas
