import ImportAtlas.Draft
import ImportAtlas.FileSystem.Reach
import ImportAtlas.Tree

/-!
# Walk — the modules below a directory

A survey lists the directories, each before what is below it; vendor directories are left out.  The
modules that it finds are analysed in the order of the survey: those below a directory before those
directly in it.  A failure of the survey counts only once all modules before it are analysed.
-/

namespace ImportAtlas

/-! ## Listing one directory -/

/-- What is directly in a directory, as far as it matters. -/
structure Listing where
  subdirs : List Path
  files : List ModuleId
deriving DecidableEq, Repr, Inhabited

/-- Names with what is known about the entries of a directory that they name. -/
def FileSystem.entriesOf (fs : FileSystem) (dir : Path) :
    List String → Except FsError (List (String × Metadata))
  | [] => .ok []
  | name :: rest =>
    match fs.metadata (dir.child name) with
    | .error e => .error e
    | .ok metadata => (fs.entriesOf dir rest).map ((name, metadata) :: ·)

theorem FileSystem.map_fst_entriesOf {fs : FileSystem} {dir : Path} {names : List String}
    {es : List (String × Metadata)} (h : fs.entriesOf dir names = .ok es) :
    es.map Prod.fst = names := by
  induction names generalizing es with
  | nil =>
    obtain rfl := Except.ok.inj h
    rfl
  | cons name rest ih =>
    unfold entriesOf at h
    split at h
    · simp at h
    · cases hrest : fs.entriesOf dir rest with
      | error e => simp [hrest, Except.map] at h
      | ok es' =>
        rw [hrest] at h
        obtain rfl := Except.ok.inj h
        simp [ih hrest]

namespace Listing

/-- Names in the order in which a directory is gone through. -/
def sortNames (names : List String) : List String := names.mergeSort fun a b => decide (a ≤ b)

/-- The entry as a directory to enter. -/
def subdir? (config : Config) (dir : Path) (entry : String × Metadata) : Option Path :=
  if entry.2.isDir && !config.isVendorDir entry.1 then some (dir.child entry.1) else none

/-- The entry as a module to analyse. -/
def moduleFile? (dir : Path) (entry : String × Metadata) : Option ModuleId :=
  let p := dir.child entry.1
  if !entry.2.isDir && entry.2.isFile && p.isModuleFile then some (.ofPath p) else none

/-- The entries of a directory, sorted by what they are. -/
def ofEntries (config : Config) (dir : Path) (es : List (String × Metadata)) : Listing :=
  ⟨es.filterMap (subdir? config dir), es.filterMap (moduleFile? dir)⟩

end Listing

/-- What is directly in a directory. -/
def FileSystem.listing (fs : FileSystem) (config : Config) (dir : Path) : Except FsError Listing :=
  match fs.names dir with
  | .error e => .error e
  | .ok names =>
    (fs.entriesOf dir (Listing.sortNames names)).map (Listing.ofEntries config dir)

theorem FileSystem.names_of_listing {fs : FileSystem} {config : Config} {dir : Path} {l : Listing}
    (h : fs.listing config dir = .ok l) :
    ∃ names es, fs.names dir = .ok names ∧ es.map Prod.fst = Listing.sortNames names ∧
      l = Listing.ofEntries config dir es := by
  unfold listing at h
  split at h
  · simp at h
  · rename_i names hnames
    cases hes : fs.entriesOf dir (Listing.sortNames names) with
    | error e => simp [hes, Except.map] at h
    | ok es =>
      rw [hes] at h
      exact ⟨names, es, hnames, map_fst_entriesOf hes, (Except.ok.inj h).symm⟩

/-- A directory that is listed in another one is one step deeper than it, and the other one is not
the deepest. -/
theorem FileSystem.depth_of_mem_subdirs {fs : FileSystem} {config : Config} {dir sub : Path}
    {l : Listing} (h : fs.listing config dir = .ok l) (hsub : sub ∈ l.subdirs) :
    dir.depth ≤ fs.maxDepth ∧ sub.depth = dir.depth + 1 := by
  obtain ⟨names, es, hnames, hes, rfl⟩ := names_of_listing h
  obtain ⟨entry, hentry, hsub⟩ := List.mem_filterMap.1 hsub
  have hmem : entry.1 ∈ names := by
    have : entry.1 ∈ Listing.sortNames names := hes ▸ List.mem_map_of_mem (f := Prod.fst) hentry
    exact (List.mergeSort_perm ..).mem_iff.1 this
  refine ⟨depth_le_maxDepth hnames, ?_⟩
  unfold Listing.subdir? at hsub
  split at hsub
  · obtain rfl := Option.some.inj hsub
    exact Path.depth_child (fs.names_plain dir names hnames _ hmem)
  · simp at hsub

/-! ## Surveying all directories below one -/

/-- A directory with the directories and modules below it. -/
inductive Layout
  | mk (path : Path) (subdirs : List Layout) (files : List ModuleId)
deriving Inhabited

/-- What a survey finds. -/
structure Survey where
  /-- The modules that are found before the survey ends or fails, in the order of their analysis. -/
  files : List ModuleId
  layout : Except FsError Layout

/-- What the surveys of several directories find, up to the first that fails. -/
def Survey.sequence : List Survey → List ModuleId × Except FsError (List Layout)
  | [] => ([], .ok [])
  | s :: rest =>
    match s.layout with
    | .error e => (s.files, .error e)
    | .ok layout =>
      let later := sequence rest
      (s.files ++ later.1, later.2.map (layout :: ·))

/-- What the survey of a directory finds, given those of the directories in it. -/
def Survey.ofListing (dir : Path) (listing : Listing) (below : List Survey) : Survey :=
  match sequence below with
  | (files, .error e) => ⟨files, .error e⟩
  | (files, .ok layouts) => ⟨files ++ listing.files, .ok (.mk dir layouts listing.files)⟩

/-- **Lists a directory and all directories below it.** -/
def FileSystem.survey (fs : FileSystem) (config : Config) (dir : Path) : Survey :=
  match _h : fs.listing config dir with
  | .error e => ⟨[], .error e⟩
  | .ok listing =>
    .ofListing dir listing (listing.subdirs.attach.map fun sub => fs.survey config sub.1)
termination_by fs.maxDepth + 1 - dir.depth
decreasing_by
  have := FileSystem.depth_of_mem_subdirs _h sub.2
  omega

/-! ## Building the tree -/

/-- The nodes of the modules that are known. -/
def fileNodes (modules : OrderedMap ModuleId Leaf) (files : List ModuleId) : List Node :=
  files.filterMap fun id => (modules.get? id).map Node.file

/-- The directories and modules of a layout, the directories first. -/
def Layout.node (modules : OrderedMap ModuleId Leaf) : Layout → Node
  | mk path subdirs files =>
    .directory path (subdirs.map (node modules) ++ fileNodes modules files)

/-- The directory of a layout with all that is below it. -/
def Layout.tree (modules : OrderedMap ModuleId Leaf) : Layout → Tree
  | mk path subdirs files => ⟨path, subdirs.map (node modules) ++ fileNodes modules files⟩

/-- The draft after the analysis of several modules. -/
def Draft.analyzeAll (fs : FileSystem) (config : Config) :
    List ModuleId → Draft → Except BuildError Draft
  | [], d => .ok d
  | id :: rest, d =>
    match d.analyze fs config id with
    | (_, .error e) => .error e
    | (d', .ok _) => analyzeAll fs config rest d'

/-- An import that leads to a module file that is neither in the draft nor on the disk. -/
def Draft.danglingEdge? (fs : FileSystem) (d : Draft) : Option Edge :=
  d.edges.find? fun e =>
    !d.hasModule e.target && e.target.path.isModuleFile && !fs.isPresent e.target.path

/-- The error that an import leads nowhere. -/
def Draft.danglingError (d : Draft) (e : Edge) : BuildError :=
  .moduleNotFound e.target.path
    (((d.recordOf? e).map ImportRecord.firstSpecifier).getD e.target.path.text) e.importer.path

namespace FileSystem

/-- Makes sure that a walk starts at a directory.  What has an extension and is not there is taken
for a file. -/
def checkDir (fs : FileSystem) (dir : Path) : Except BuildError Unit :=
  match fs.metadata dir with
  | .ok metadata => if metadata.isDir then .ok () else .error (.notADirectory dir)
  | .error e =>
    if dir.extension?.isSome then .error (.notADirectory dir) else .error (.fileSystem e)

/-- The modules below a directory; paths of the tree keep the spelling of the given one. -/
def walk (fs : FileSystem) (config : Config) (dir : Path) : Except BuildError DependencyTree := do
  fs.checkDir dir
  let survey := fs.survey config dir
  let d ← Draft.empty.analyzeAll fs config survey.files
  let layout ← survey.layout.mapError .fileSystem
  if let some e := d.danglingEdge? fs then throw (d.danglingError e)
  let modules := d.link.modules
  return ⟨layout.tree modules, modules⟩

/-- **The tree of all modules below a directory.** -/
def dependencyTree (fs : FileSystem) (config : Config) (dir : Path) :
    Except BuildError DependencyTree :=
  (fs.absolute dir).mapError .fileSystem >>= fs.walk config

end FileSystem

end ImportAtlas
