import ImportAtlas.Command.Log
import ImportAtlas.Config.Load
import ImportAtlas.Exploration
import ImportAtlas.Walk

/-!
# Command/Progress — what a command reports about its steps

Every step has its messages: reading the configuration, entering a directory, looking for the file
that an import leads to, analysing a module.  The messages of a build end with the step that fails;
only a build that succeeds is summed up.
-/

namespace ImportAtlas

open Log

/-- The elements of a list up to the first that stops it, and that one. -/
def upToFirst {α : Type} (stops : α → Bool) : List α → List α
  | [] => []
  | a :: rest => if stops a then [a] else a :: upToFirst stops rest

/-! ## Configuration -/

/-- The messages about a configuration file, if there is one to read. -/
def configMessages (fs : FileSystem) (file : Option Path) : List Message :=
  let p := file.getD Config.defaultFile
  if fs.isPresent p then [⟨.debug, library ++ "::config", s!"Loading config from {p}", []⟩] else []

/-- The message that the configuration is known. -/
def loadedMessage : Message :=
  ⟨.debug, program ++ "::commands::utils", "Configuration loaded", ["vendor_dirs", "max_file_size"]⟩

/-! ## Modules -/

/-- The message that a specifier leads to no module. -/
def externalMessage (reason : String) : Message :=
  ⟨.trace, library ++ "::resolver", s!"{reason} specifier treated as external", ["specifier"]⟩

/-- The message that a path is looked up, if it is not the path that the import names itself. -/
def probeMessage? (candidate p : Path) : Option Message :=
  let report (what : String) : Option Message :=
    some ⟨.trace, library ++ "::resolver::extensions", s!"{what} {p}", []⟩
  if p = candidate then none
  else if (indexFiles candidate).contains p then report "Probing index file"
  else report "Probing"

/-- The messages of finding out what a specifier leads to. -/
def resolutionMessages (fs : FileSystem) (vendorDirs : List String) (importer : Path)
    (specifier : String) : List Message :=
  let candidate := candidatePath importer specifier
  if !isRelative specifier then [externalMessage "Bare"]
  else if isVendored importer candidate vendorDirs then [externalMessage "Vendored"]
  else if candidate.isModuleFile then []
  else (upToFirst fs.isFile (fs.probes candidate)).filterMap (probeMessage? candidate)

/-- The messages of the analysis of a module. -/
def moduleMessages (fs : FileSystem) (config : Config) (id : ModuleId) : List Message :=
  match fs.readStructure config.maxFileSize id.path with
  | .error _ => []
  | .ok (_, contents) =>
    let specifiers := contents.imports.map ImportStatement.source
    let fails (s : String) : Bool := (fs.resolve config.vendorDirs id.path s).toOption.isNone
    let found := (upToFirst fails specifiers).flatMap
      (resolutionMessages fs config.vendorDirs id.path)
    if specifiers.any fails then found
    else found ++ [⟨.debug, library ++ "::analyzer", s!"Analyzed {id}",
      ["imports", "exports", "reexports"]⟩]

/-- The message that the modules of a build are linked. -/
def linkedMessage : Message :=
  ⟨.debug, library ++ "::linker", "Linked import edges", ["linked", "unlinked", "mutual"]⟩

/-! ## Graphs -/

/-- The messages about the imports of a module that are not followed. -/
def assetMessages (leaf : Leaf) : List Message :=
  (leaf.imports.keys.filter fun target => !target.path.isModuleFile).map fun target =>
    ⟨.trace, library ++ "::assembler", s!"Not traversing asset {target}", []⟩

/-- The messages of following the imports of a module. -/
def explorationMessages (fs : FileSystem) (config : Config) (entry : Path) : List Message :=
  match fs.absolute entry with
  | .error _ => []
  | .ok entry =>
    let (d, _) := fs.explore config [.ofPath entry] .empty
    d.visited.flatMap fun id =>
      moduleMessages fs config id ++ ((d.modules.get? id).elim [] assetMessages)

/-- The messages that sum up a graph. -/
def graphMessages (g : ModuleGraph) : List Message :=
  let bothWays := (g.modules.values.flatMap fun leaf => leaf.mutualReferences).length
  [linkedMessage,
    ⟨.debug, library ++ "::assembler", s!"Assembled graph from {g.root.id}", ["modules", "mutual"]⟩,
    ⟨.info, program ++ "::commands::graph",
      s!"Reached {g.modules.size} module(s) from {g.root.id} ({bothWays} mutual edge(s))", []⟩]

/-! ## Trees -/

/-- A step of a walk. -/
inductive WalkStep
  | enter (dir : Path)
  | analyze (id : ModuleId)

/-- The steps of a walk through directories: into each of them, then through those in it, then to
the modules in it. -/
def Layout.steps : Layout → List WalkStep
  | mk path subdirs files => .enter path :: subdirs.flatMap steps ++ files.map .analyze

/-- The steps of a walk, as far as the directories can be listed. -/
def Survey.steps (dir : Path) (s : Survey) : List WalkStep :=
  match s.layout with
  | .ok layout => layout.steps
  | .error _ => .enter dir :: s.files.map .analyze

/-- The messages about the directories in a directory that are left out. -/
def skipMessages (fs : FileSystem) (config : Config) (dir : Path) : List Message :=
  let names := Listing.sortNames ((fs.names dir).toOption.getD [])
  (names.filter fun name => config.isVendorDir name && fs.isDir (dir.child name)).map fun name =>
    ⟨.trace, library ++ "::walker", s!"Skipping vendor directory {dir.child name}", []⟩

/-- The messages of a step. -/
def WalkStep.messages (fs : FileSystem) (config : Config) : WalkStep → List Message
  | enter dir =>
    ⟨.debug, library ++ "::walker", s!"Entering directory {dir}", []⟩ :: skipMessages fs config dir
  | analyze id => moduleMessages fs config id

/-- Whether a walk ends at the step. -/
def WalkStep.fails (fs : FileSystem) (config : Config) : WalkStep → Bool
  | enter _ => false
  | analyze id => (fs.analyze config id).leaf.toOption.isNone

/-- The messages of walking through a directory. -/
def walkMessages (fs : FileSystem) (config : Config) (dir : Path) : List Message :=
  match fs.absolute dir with
  | .error _ => []
  | .ok dir =>
    match fs.checkDir dir with
    | .error _ => []
    | .ok () =>
      let steps := (fs.survey config dir).steps dir
      (upToFirst (WalkStep.fails fs config) steps).flatMap (WalkStep.messages fs config)

/-- The messages that sum up a tree. -/
def treeMessages (t : DependencyTree) : List Message :=
  [linkedMessage,
    ⟨.debug, library ++ "::walker", s!"Walked directory {t.root.path}", ["modules"]⟩,
    ⟨.info, program ++ "::commands::tree",
      s!"Analyzed {t.modules.size} module(s) under {t.root.path}", []⟩]

end ImportAtlas
