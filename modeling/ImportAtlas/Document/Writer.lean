import ImportAtlas.Config
import ImportAtlas.Json.Printer
import ImportAtlas.Tree

/-!
# Document/Writer — modules, trees and graphs as documents

Each structure is an object with its fields in a fixed order.  Maps keep the order of their keys.
-/

namespace ImportAtlas

open Json

/-- The document of a path. -/
def Path.toJson (p : Path) : Json := string p.text

/-- The document of the identity of a module. -/
def ModuleId.toJson (id : ModuleId) : Json := id.path.toJson

/-- The document of a clause of an import statement. -/
def Binding.toJson : Binding → Json
  | named imported localName =>
    object [("kind", string "named"), ("imported", string imported), ("local", string localName)]
  | default localName => object [("kind", string "default"), ("local", string localName)]
  | «namespace» localName => object [("kind", string "namespace"), ("local", string localName)]

/-- The document of an import record. -/
def ImportRecord.toJson (r : ImportRecord) : Json :=
  object [("specifiers", strings r.specifiers), ("mutual_reference", bool r.isMutual),
    ("resolved_node", r.resolved.elim null ModuleId.toJson),
    ("bindings", array (r.bindings.map Binding.toJson))]

/-- The document of an export record. -/
def ExportRecord.toJson (r : ExportRecord) : Json :=
  object [("kind", string r.kind.name), ("exported_name", string r.exportedName),
    ("local_name", optional r.localName), ("reexport_source", optional r.source)]

/-- The document of a map from modules. -/
def OrderedMap.toJson {α : Type} (f : α → Json) (m : OrderedMap ModuleId α) : Json :=
  object (m.entries.map fun e => (e.1.path.text, f e.2))

/-- The document of a dialect. -/
def Dialect.toJson (d : Dialect) : Json := string d.name

/-- The document of a module. -/
def Leaf.toJson (leaf : Leaf) : Json :=
  object [("id", leaf.id.toJson), ("dialect", leaf.dialect.toJson),
    ("imports", leaf.imports.toJson ImportRecord.toJson),
    ("exports", array (leaf.exports.map ExportRecord.toJson))]

/-- The document of a directory, given those of what is in it. -/
def Tree.document (path : Path) (children : List Json) : Json :=
  object [("path", path.toJson), ("children", array children)]

/-- The document of a directory or module in a tree, with a word that says which of them it is. -/
def Node.toJson : Node → Json
  | directory path children =>
    object [("type", string "directory"), ("node", Tree.document path (children.map toJson))]
  | file leaf => object [("type", string "file"), ("node", leaf.toJson)]

/-- The document of a directory. -/
def Tree.toJson (t : Tree) : Json := document t.path (t.children.map Node.toJson)

/-- The document of a tree with its modules. -/
def DependencyTree.toJson (t : DependencyTree) : Json :=
  object [("root", t.root.toJson), ("modules", t.modules.toJson Leaf.toJson)]

/-- The document of a graph. -/
def ModuleGraph.toJson (g : ModuleGraph) : Json :=
  object [("root", g.root.toJson), ("modules", g.modules.toJson Leaf.toJson)]

/-- The document of a configuration. -/
def Config.toJson (c : Config) : Json :=
  object [("vendor_dirs", strings c.vendorDirs), ("max_file_size", natural c.maxFileSize)]

end ImportAtlas
