import ImportAtlas.Leaf

/-!
# Tree — directories with their modules
-/

namespace ImportAtlas

/-- A directory or a module in a tree. -/
inductive Node
  | directory (path : Path) (children : List Node)
  | file (leaf : Leaf)
deriving Inhabited

/-- A directory with all that is below it. -/
structure Tree where
  path : Path
  children : List Node
deriving Inhabited

/-- The directory that the node is, if it is one. -/
def Node.directory? : Node → Option Tree
  | directory path children => some ⟨path, children⟩
  | file _ => none

/-- The module that the node is, if it is one. -/
def Node.leaf? : Node → Option Leaf
  | directory _ _ => none
  | file leaf => some leaf

/-- The modules at or below a node, from the left to the right. -/
def Node.leaves : Node → List Leaf
  | directory _ children => children.flatMap leaves
  | file leaf => [leaf]

/-- The number of modules at or below a node. -/
def Node.fileCount : Node → Nat
  | directory _ children => (children.map fileCount).foldr (· + ·) 0
  | file _ => 1

theorem Node.fileCount_eq : ∀ node : Node, node.fileCount = node.leaves.length
  | directory _ children => by
    rw [fileCount, leaves, List.length_flatMap, List.sum_eq_foldr,
      List.map_congr_left fun child _ => fileCount_eq child]
  | file _ => by rw [fileCount, leaves, List.length_singleton]

namespace Tree

/-- The directory as a node of a larger tree. -/
def toNode (t : Tree) : Node := .directory t.path t.children

/-- The directories directly in this one. -/
def directories (t : Tree) : List Tree := t.children.filterMap Node.directory?

/-- The modules directly in this directory. -/
def files (t : Tree) : List Leaf := t.children.filterMap Node.leaf?

/-- The modules in this directory and below it. -/
def leaves (t : Tree) : List Leaf := t.toNode.leaves

/-- The number of modules in this directory and below it. -/
def fileCount (t : Tree) : Nat := t.toNode.fileCount

end Tree

/-- The modules of a directory, by place and by identity. -/
structure DependencyTree where
  root : Tree
  modules : OrderedMap ModuleId Leaf
deriving Inhabited

/-- The modules that are reached from one of them. -/
structure ModuleGraph where
  root : Leaf
  modules : OrderedMap ModuleId Leaf
deriving DecidableEq, Repr, Inhabited

/-- The module that an import leads to. -/
def ModuleGraph.targetOf? (graph : ModuleGraph) (record : ImportRecord) : Option Leaf :=
  record.resolved.bind graph.modules.get?

end ImportAtlas
