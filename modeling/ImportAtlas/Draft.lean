import ImportAtlas.Analysis

/-!
# Draft — a graph of modules while it is drawn

A draft holds the modules that were analysed so far and the edges between them.  `link` is the last
stroke: it marks the imports that lead to modules of the draft and those that go both ways.
-/

namespace ImportAtlas

/-- An import of one module by another. -/
structure Edge where
  importer : ModuleId
  target : ModuleId
deriving DecidableEq, Repr, Inhabited

/-- The same edge the other way round. -/
def Edge.flip (e : Edge) : Edge := ⟨e.target, e.importer⟩

/-- A graph of modules while it is drawn. -/
structure Draft where
  /-- The modules, in the order they were analysed. -/
  modules : OrderedMap ModuleId Leaf
  /-- All imports, each once, in the order they were found. -/
  edges : List Edge
  /-- The modules that an exploration has come to. -/
  visited : List ModuleId
deriving DecidableEq, Repr, Inhabited

namespace Draft

/-- The draft of nothing. -/
def empty : Draft := ⟨.empty, [], []⟩

/-- Whether the module is in the draft. -/
def hasModule (d : Draft) (id : ModuleId) : Bool := d.modules.contains id

/-- The draft with a module.  Of two modules with one identity the first stays. -/
def addModule (d : Draft) (leaf : Leaf) : Draft :=
  { d with modules := d.modules.update leaf.id fun known => known.getD leaf }

/-- Whether the import is in the draft. -/
def hasEdge (d : Draft) (e : Edge) : Bool := d.edges.contains e

/-- The draft with an import. -/
def addEdge (d : Draft) (e : Edge) : Draft :=
  if d.hasEdge e then d else { d with edges := d.edges ++ [e] }

/-- Whether an exploration has come to the module. -/
def isVisited (d : Draft) (id : ModuleId) : Bool := d.visited.contains id

/-- The draft with a mark that an exploration has come to the module. -/
def visit (d : Draft) (id : ModuleId) : Draft :=
  if d.isVisited id then d else { d with visited := d.visited ++ [id] }

/-- The draft with what the analysis of a module has brought to light. -/
def addFindings (d : Draft) (id : ModuleId) (findings : Findings) : Draft :=
  let d := findings.targets.foldl (fun d target => d.addEdge ⟨id, target⟩) d
  match findings.leaf with
  | .ok leaf => d.addModule leaf
  | .error _ => d

/-- The draft after the analysis of a module, and the files that the module imports. -/
def analyze (fs : FileSystem) (config : Config) (d : Draft) (id : ModuleId) :
    Draft × Except BuildError (List ModuleId) :=
  let findings := fs.analyze config id
  (d.addFindings id findings, findings.leaf.map fun leaf => leaf.imports.keys)

/-! ## Linking -/

/-- The record of an import of the draft, linked. -/
def linkRecord (d : Draft) (e : Edge) (record : ImportRecord) : ImportRecord :=
  if d.hasEdge e then
    { record with
      isMutual := d.hasEdge e.flip
      resolved := if d.hasModule e.target then some e.target else none }
  else record

/-- **The draft with all imports linked**: each knows whether the other module is in the draft, and
whether it imports this one as well. -/
def link (d : Draft) : Draft :=
  { d with
    modules := d.modules.mapValues fun id leaf =>
      { leaf with imports := leaf.imports.mapValues fun target => d.linkRecord ⟨id, target⟩ } }

/-- Counts of imports. -/
structure LinkCounts where
  linked : Nat
  unlinked : Nat
  bothWays : Nat
deriving DecidableEq, Repr, Inhabited

/-- The record of an import. -/
def recordOf? (d : Draft) (e : Edge) : Option ImportRecord :=
  (d.modules.get? e.importer).bind fun leaf => leaf.importOf? e.target

/-- How many imports with a record lead to modules of the draft, how many do not, and how many go
both ways. -/
def linkCounts (d : Draft) : LinkCounts :=
  let recorded := d.edges.filter fun e => (d.recordOf? e).isSome
  ⟨recorded.countP fun e => d.hasModule e.target,
    recorded.countP fun e => !d.hasModule e.target,
    recorded.countP fun e => d.hasEdge e.flip⟩

end Draft

end ImportAtlas
