/-!
# ExportRecord — one exported name of a module
-/

namespace ImportAtlas

/-- How a name is exported. -/
inductive ExportKind
  | named
  | default
  /-- Everything that another module exports. -/
  | reexportAll
deriving DecidableEq, Repr, Inhabited

/-- The spelling of the kind in a document. -/
def ExportKind.name : ExportKind → String
  | named => "named"
  | default => "default"
  | reexportAll => "reexport_all"

/-- All kinds. -/
def ExportKind.all : List ExportKind := [.named, .default, .reexportAll]

/-- The kind with the given spelling. -/
def ExportKind.ofName? (s : String) : Option ExportKind := all.find? fun k => k.name == s

/-- One exported name of a module. -/
structure ExportRecord where
  kind : ExportKind
  /-- The public name; for a default export a label that is taken from the text. -/
  exportedName : String
  localName : Option String
  /-- The module that the name is passed on from, as it is written. -/
  source : Option String
deriving DecidableEq, Repr, Inhabited

namespace ExportRecord

/-- An export of a local name. -/
def named (exported localName : String) : ExportRecord := ⟨.named, exported, some localName, none⟩

/-- An export of a name of another module. -/
def reexported (exported localName source : String) : ExportRecord :=
  ⟨.named, exported, some localName, some source⟩

/-- A default export with its label. -/
def default (label : String) : ExportRecord := ⟨.default, label, none, none⟩

/-- An export of everything that another module exports. -/
def reexportAll (source : String) : ExportRecord := ⟨.reexportAll, "*", none, some source⟩

/-- Whether this is the default export. -/
def isDefault (r : ExportRecord) : Bool := r.kind == .default

/-- Whether the name comes from another module. -/
def isReexport (r : ExportRecord) : Bool := r.source.isSome

end ExportRecord

end ImportAtlas
