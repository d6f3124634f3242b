import ImportAtlas.Proofs.ByteOrder
import ImportAtlas.Proofs.Draft
import ImportAtlas.Proofs.Survey

/-!
# Proofs/Walk — the tree of a walk

A walk that succeeds charts the disk, analyses the modules of the chart in its order and draws the
tree of the chart (`walk_eq_ok`).  Hence the directories of the tree are those of the chart
(`Layout.paths_trees`), its leaves are the modules of the chart (`Layout.leaves_node`), and each
directory of the tree shows its listing (`Charts.listing_of_mem_trees`).
-/

namespace ImportAtlas

variable {fs : FileSystem} {config : Config} {dir : Path} {d d' : Draft} {id : ModuleId}
  {ids : List ModuleId} {layout : Layout} {t : DependencyTree} {modules : OrderedMap ModuleId Leaf}

/-! ## What a walk does -/

namespace Draft

theorem analyzeAll_cons : d.analyzeAll fs config (id :: ids)
    = match d.analyze fs config id with
      | (_, .error e) => .error e
      | (d', .ok _) => d'.analyzeAll fs config ids := by rfl

/-- A walk analyses modules without marking any. -/
theorem analyzeAll_eq (ids : List ModuleId) (d : Draft) : d.analyzeAll fs config ids
    = match analyzeEach fs config (fun d _ => d) ids d with
      | (d', none) => .ok d'
      | (_, some e) => .error e := by
  induction ids generalizing d with
  | nil => rfl
  | cons id ids ih =>
    rw [analyzeAll_cons]
    cases hleaf : (fs.analyze config id).leaf with
    | ok leaf =>
      rw [analyze_eq_ok hleaf, analyzeEach_cons_ok hleaf]
      exact ih _
    | error e => rw [analyze_eq_error hleaf, analyzeEach_cons_error hleaf]

/-- **No import dangles** if each module file that is imported is in the draft or on the disk. -/
theorem Sound.danglingEdge?_eq_none_iff (hd : d.Sound fs config) : d.danglingEdge? fs = none ↔
    ∀ id ∈ d.modules.keys, ∀ target ∈ fs.modulesFrom config id,
      target ∈ d.modules.keys ∨ fs.isPresent target.path = true := by
  have hmodule (id : ModuleId) : d.hasModule id = false ↔ id ∉ d.modules.keys := by
    rw [hasModule, ← Bool.not_eq_true, OrderedMap.contains_eq_true]
  simp only [danglingEdge?, List.find?_eq_none, Bool.and_eq_true, Bool.not_eq_true', hmodule,
    hd.mem_edges, FileSystem.mem_modulesFrom, not_and, Bool.not_eq_false, and_imp]
  constructor
  · intro h id hid target htarget hfile
    exact Decidable.or_iff_not_imp_left.mpr fun hnot => h ⟨id, target⟩ hid htarget hnot hfile
  · intro h e hid htarget hnot hfile
    exact (h e.importer hid e.target htarget hfile).resolve_left hnot

end Draft

namespace FileSystem

variable {fs' : FileSystem} {config' : Config}

/-- A survey reads the listings and nothing else. -/
theorem survey_congr (hlisting : ∀ dir, fs.listing config dir = fs'.listing config' dir)
    (dir : Path) : fs.survey config dir = fs'.survey config' dir := by
  induction dir using FileSystem.survey.induct fs config with
  | case1 dir e h =>
    rw [survey_of_error h, survey_of_error (hlisting dir ▸ h)]
  | case2 dir l h ih =>
    rw [survey_of_listing h, survey_of_listing (hlisting dir ▸ h)]
    exact congrArg (Survey.ofListing dir l) (List.map_congr_left fun sub hsub => ih ⟨sub, hsub⟩)

/-- **A walk reads the listings and the analyses**, and beyond these the metadata of its directory
and what is there. -/
theorem walk_congr (hlisting : ∀ dir, fs.listing config dir = fs'.listing config' dir)
    (hanalyze : ∀ id, fs.analyze config id = fs'.analyze config' id)
    (hmetadata : fs.metadata = fs'.metadata) (hpresent : fs.isPresent = fs'.isPresent)
    (dir : Path) : fs.walk config dir = fs'.walk config' dir := by
  have hcheck : fs.checkDir dir = fs'.checkDir dir := by rw [checkDir, checkDir, hmetadata]
  have hdangling (d : Draft) : d.danglingEdge? fs = d.danglingEdge? fs' := by
    rw [Draft.danglingEdge?, Draft.danglingEdge?, hpresent]
  have heach (ids : List ModuleId) (d : Draft) : d.analyzeEach fs config (fun d _ => d) ids
      = d.analyzeEach fs' config' (fun d _ => d) ids :=
    Draft.analyzeEach_congr (fun id _ => hanalyze id) d
  simp only [walk, hcheck, survey_congr hlisting, Draft.analyzeAll_eq, heach, hdangling]

/-- **What a successful walk consists of**: a chart of the disk, a sound draft of the modules of the
chart in which no edge dangles, and the tree of the chart with the linked modules. -/
theorem walk_eq_ok (h : fs.walk config dir = .ok t) :
    ∃ (layout : Layout) (d : Draft), layout.path = dir ∧ fs.Charts config layout ∧
      d.Sound fs config ∧ d.modules.keys = layout.allFiles ∧ d.danglingEdge? fs = none ∧
      t = ⟨layout.tree d.link.modules, d.link.modules⟩ := by
  obtain ⟨_, _, h⟩ := exists_ok_of_bind h
  obtain ⟨d, hrun, h⟩ := exists_ok_of_bind h
  obtain ⟨layout, hlayout, h⟩ := exists_ok_of_bind h
  obtain ⟨hpath, hcharts, hfiles⟩ := charts_of_survey (eq_ok_of_mapError hlayout)
  rw [hfiles, Draft.analyzeAll_eq] at hrun
  cases heach : Draft.empty.analyzeEach fs config (fun d _ => d) layout.allFiles with
  | mk d' failure =>
    cases failure with
    | some e => simp [heach] at hrun
    | none =>
      obtain rfl : d' = d := by simpa [heach] using hrun
      obtain ⟨hsound, hkeys⟩ :=
        Draft.sound_of_run (fun _ _ => rfl) (fun hd => hd) hcharts.nodup_allFiles heach
      cases hdangling : d'.danglingEdge? fs with
      | some e =>
        rw [hdangling] at h
        cases h
      | none =>
        rw [hdangling] at h
        exact ⟨layout, d', hpath, hcharts, hsound, hkeys, hdangling, (Except.ok.inj h).symm⟩

/-- A directory has one chart at most. -/
theorem Charts.eq_of_path_eq (h : fs.Charts config layout) {layout' : Layout}
    (h' : fs.Charts config layout') (hpath : layout.path = layout'.path) : layout = layout' := by
  have hsurvey := survey_of_charts h
  rw [hpath, survey_of_charts h'] at hsurvey
  exact (Except.ok.inj (congrArg Survey.layout hsurvey)).symm

/-- The tree and the modules of a walk are those of the chart of its directory. -/
theorem Charts.eq_of_walk (hcharts : fs.Charts config layout)
    (h : fs.walk config layout.path = .ok t) :
    t.root = layout.tree t.modules ∧ t.modules.keys = layout.allFiles := by
  obtain ⟨charted, d, hpath, hcharted, _, hkeys, _, rfl⟩ := walk_eq_ok h
  obtain rfl := hcharted.eq_of_path_eq hcharts hpath
  exact ⟨rfl, by rw [Draft.keys_link, hkeys]⟩

/-- A walk that succeeds starts at a directory. -/
theorem checkDir_of_walk (h : fs.walk config dir = .ok t) : fs.checkDir dir = .ok () := by
  obtain ⟨⟨⟩, hdir, _⟩ := exists_ok_of_bind h
  exact hdir

/-- **The modules of a walk** are those that lie below its directory, vendor directories left out. -/
theorem mem_keys_walk (h : fs.walk config dir = .ok t) :
    id ∈ t.modules.keys ↔ fs.IsWalkedModule config dir id := by
  obtain ⟨layout, d, rfl, hcharts, _, hkeys, _, rfl⟩ := walk_eq_ok h
  rw [Draft.keys_link, hkeys]
  exact hcharts.mem_allFiles

/-- **When a walk succeeds**: the directory has a chart, all modules of the chart are analysed with
success, and each module file that one of them imports is among them or on the disk. -/
theorem exists_walk (hcharts : fs.Charts config layout) (hdir : fs.checkDir layout.path = .ok ())
    (hok : ∀ id ∈ layout.allFiles, ∃ leaf, (fs.analyze config id).leaf = .ok leaf)
    (hfound : ∀ id ∈ layout.allFiles, ∀ target ∈ fs.modulesFrom config id,
      target ∈ layout.allFiles ∨ fs.isPresent target.path = true) :
    ∃ t, fs.walk config layout.path = .ok t ∧ t.modules.keys = layout.allFiles := by
  rcases Draft.analyzeEach_cases fs config (fun d _ => d) layout.allFiles .empty with
    ⟨d, hrun, _⟩ | ⟨_, _, _, id, _, _, hsplit, _, herror⟩
  · obtain ⟨hsound, hkeys⟩ :=
      Draft.sound_of_run (fun _ _ => rfl) (fun hd => hd) hcharts.nodup_allFiles hrun
    have hdangling := hsound.danglingEdge?_eq_none_iff.mpr (hkeys ▸ hfound)
    have hsurvey := survey_of_charts hcharts
    have hall : Draft.empty.analyzeAll fs config layout.allFiles = .ok d := by
      rw [Draft.analyzeAll_eq, hrun]
    refine ⟨⟨layout.tree d.link.modules, d.link.modules⟩, ?_, by rw [Draft.keys_link, hkeys]⟩
    unfold walk
    rw [hdir, hsurvey]
    change (Draft.empty.analyzeAll fs config layout.allFiles >>= _) = _
    rw [hall]
    have hlayout : (Except.ok layout).mapError BuildError.fileSystem = .ok layout := rfl
    simp only [bind, Except.bind, hlayout, hdangling]
    rfl
  · obtain ⟨leaf, hleaf⟩ := hok id (by simp [hsplit])
    cases hleaf.symm.trans herror

/-- Modules that can be built by themselves make a tree, if they are those of a chart. -/
theorem IsSelfContained.exists_walk {ids : List ModuleId} (h : fs.IsSelfContained config ids)
    (hcharts : fs.Charts config layout) (hids : layout.allFiles = ids)
    (hdir : fs.checkDir layout.path = .ok ()) :
    ∃ t, fs.walk config layout.path = .ok t ∧ t.modules.keys = ids := by
  subst hids
  exact FileSystem.exists_walk hcharts hdir (fun _ hid => h.exists_leaf hid)
    fun id hid target htarget => Or.inl (h.closed id hid target (mem_modulesFrom.mp htarget).1)

/-- So they do if a directory lists them and no directories. -/
theorem IsSelfContained.exists_walk_of_listing {ids : List ModuleId}
    (h : fs.IsSelfContained config ids) (hlisting : fs.listing config dir = .ok ⟨[], ids⟩)
    (hdir : fs.checkDir dir = .ok ()) : ∃ t, fs.walk config dir = .ok t ∧ t.modules.keys = ids := by
  have hcharts : fs.Charts config (.mk dir [] ids) := .mk hlisting (by simp)
  exact h.exists_walk hcharts (by simp [Layout.allFiles]) hdir

/-- What the modules of a walk import is there, if it is a module file: the walk has read it or
looked for it. -/
theorem present_of_walk (h : fs.walk config dir = .ok t) (hid : id ∈ t.modules.keys)
    (htarget : target ∈ fs.modulesFrom config id) :
    target ∈ t.modules.keys ∨ fs.isPresent target.path = true := by
  obtain ⟨_, d, _, _, hsound, _, hdangling, rfl⟩ := walk_eq_ok h
  rw [Draft.keys_link] at hid ⊢
  exact hsound.danglingEdge?_eq_none_iff.mp hdangling id hid target htarget

/-- A walk starts at the absolute form of its directory. -/
theorem dependencyTree_of_absolute {top : Path} (h : fs.absolute dir = .ok top) :
    fs.dependencyTree config dir = fs.walk config top := by
  rw [dependencyTree, h]
  rfl

theorem walk_of_dependencyTree (h : fs.dependencyTree config dir = .ok t) :
    ∃ top, fs.absolute dir = .ok top ∧ fs.walk config top = .ok t := by
  obtain ⟨top, htop, hwalk⟩ := exists_ok_of_bind h
  exact ⟨top, eq_ok_of_mapError htop, hwalk⟩

end FileSystem

namespace Memory

theorem listing_twins : twins.toFileSystem.listing {} ⟨"/"⟩ = .ok ⟨[], [twinA, twinB]⟩ := by
  have hnames : twins.toFileSystem.names ⟨"/"⟩ = .ok ["a.ts", "b.ts"] := rfl
  rw [FileSystem.listing_of_sorted hnames (by decide)]
  rfl

/-- The tree of the twins. -/
theorem tree_twins : ∃ t, twins.toFileSystem.dependencyTree {} ⟨"/"⟩ = .ok t ∧
    t.modules.keys = [twinA, twinB] :=
  isSelfContained_twins.exists_walk_of_listing listing_twins rfl

end Memory

/-! ## Trees of layouts -/

/-- The directories at or below a node, each before what is below it. -/
def Node.trees : Node → List Tree
  | directory path children => ⟨path, children⟩ :: children.flatMap trees
  | file _ => []

namespace Tree

/-- The directory itself and the directories below it. -/
def trees (t : Tree) : List Tree := t.toNode.trees

/-- Names of entries of a directory in the order of their bytes. -/
def AreSorted (names : List String) : Prop :=
  (∀ name ∈ names, Path.isPlainName name = true) ∧ names.Pairwise fun a b => bytesOf a < bytesOf b

/-- **A directory in good order**: the directories in it come before the modules in it, both by
their names, and all of them are found under their names. -/
structure IsTidy (t : Tree) : Prop where
  directories_first : t.children = t.directories.map toNode ++ t.files.map Node.file
  directories_sorted : ∃ names, AreSorted names ∧ t.directories.map path = names.map t.path.child
  files_sorted : ∃ names, AreSorted names ∧
    t.files.map Leaf.id = names.map fun name => .ofPath (t.path.child name)

end Tree

theorem fileNodes_eq (files : List ModuleId) :
    fileNodes modules files = (files.filterMap modules.get?).map Node.file :=
  List.map_filterMap.symm

namespace Layout

variable {path : Path} {subdirs : List Layout} {files : List ModuleId}

theorem node_eq_toNode (layout : Layout) : layout.node modules = (layout.tree modules).toNode := by
  cases layout
  rw [node]
  rfl

@[simp] theorem path_tree (layout : Layout) : (layout.tree modules).path = layout.path := by
  cases layout
  rfl

/-- The modules of the tree, from the left to the right, are those of the layout. -/
theorem leaves_node (modules : OrderedMap ModuleId Leaf) :
    ∀ layout : Layout, (layout.node modules).leaves = layout.allFiles.filterMap modules.get?
  | mk path subdirs files => by
    have hsubdirs : (subdirs.map (node modules)).flatMap Node.leaves
        = (subdirs.flatMap allFiles).filterMap modules.get? := by
      rw [List.flatMap_map, List.filterMap_flatMap]
      exact congrArg List.flatten (List.map_congr_left fun sub _ => leaves_node modules sub)
    have hfiles : (fileNodes modules files).flatMap Node.leaves
        = files.filterMap modules.get? := by
      simp only [fileNodes_eq, List.flatMap_map, Node.leaves]
      exact List.flatMap_singleton' _
    rw [node, Node.leaves, allFiles, List.flatMap_append, hsubdirs, hfiles, List.filterMap_append]

theorem trees_node : ((mk path subdirs files).node modules).trees
    = (mk path subdirs files).tree modules
        :: subdirs.flatMap fun sub => (sub.node modules).trees := by
  have hfiles : (fileNodes modules files).flatMap Node.trees = [] := by
    rw [fileNodes_eq, List.flatMap_map]
    exact List.flatMap_eq_nil_iff.mpr fun _ _ => by rw [Node.trees]
  rw [node, Node.trees, List.flatMap_append, hfiles, List.append_nil, List.flatMap_map]
  rfl

/-- The directories of the tree are those of the layout. -/
theorem paths_trees (modules : OrderedMap ModuleId Leaf) :
    ∀ layout : Layout, (layout.node modules).trees.map Tree.path = layout.dirs
  | mk path subdirs files => by
    rw [trees_node, List.map_cons, path_tree, List.map_flatMap, dirs]
    exact congrArg (path :: List.flatten ·)
      (List.map_congr_left fun sub _ => paths_trees modules sub)

theorem directories_tree :
    ((mk path subdirs files).tree modules).directories = subdirs.map (tree modules) := by
  have hsubdirs : (subdirs.map (node modules)).filterMap Node.directory?
      = subdirs.map (tree modules) := by
    rw [List.filterMap_map, ← List.filterMap_eq_map]
    refine congrArg (List.filterMap · subdirs) (funext fun sub => ?_)
    rw [Function.comp_apply, node_eq_toNode]
    rfl
  have hfiles : (fileNodes modules files).filterMap Node.directory? = [] := by
    rw [fileNodes_eq, List.filterMap_map]
    exact List.filterMap_eq_nil_iff.mpr fun _ _ => rfl
  rw [Tree.directories, tree, List.filterMap_append, hsubdirs, hfiles, List.append_nil]

theorem files_tree :
    ((mk path subdirs files).tree modules).files = files.filterMap modules.get? := by
  have hsubdirs : (subdirs.map (node modules)).filterMap Node.leaf? = [] := by
    rw [List.filterMap_map]
    refine List.filterMap_eq_nil_iff.mpr fun sub _ => ?_
    rw [Function.comp_apply, node_eq_toNode]
    rfl
  have hfiles : (fileNodes modules files).filterMap Node.leaf? = files.filterMap modules.get? := by
    rw [fileNodes_eq, List.filterMap_map]
    exact List.filterMap_some
  rw [Tree.files, tree, List.filterMap_append, hsubdirs, hfiles, List.nil_append]

/-- In each directory of the tree the directories come before the modules. -/
theorem children_of_mem_trees : ∀ (layout : Layout), ∀ s ∈ (layout.node modules).trees,
    s.children = s.directories.map Tree.toNode ++ s.files.map Node.file
  | mk path subdirs files => by
    rw [trees_node, List.forall_mem_cons, List.forall_mem_flatMap]
    refine ⟨?_, fun sub _ => children_of_mem_trees sub⟩
    rw [directories_tree, files_tree, List.map_map, ← fileNodes_eq]
    refine congrArg (· ++ fileNodes modules files) ?_
    exact List.map_congr_left fun sub _ => sub.node_eq_toNode

end Layout

namespace FileSystem

/-- Modules that are registered under their own identities are found in the order asked for. -/
theorem map_id_filterMap_get? {ids : List ModuleId}
    (h : ∀ id ∈ ids, ∃ leaf, modules.get? id = some leaf ∧ leaf.id = id) :
    (ids.filterMap modules.get?).map Leaf.id = ids := by
  induction ids with
  | nil => rfl
  | cons id ids ih =>
    obtain ⟨⟨leaf, hget, hid⟩, hids⟩ := List.forall_mem_cons.mp h
    rw [List.filterMap_cons_some hget, List.map_cons, hid, ih hids]

/-- The leaves of the tree of a layout are the modules of the layout. -/
theorem ids_leaves_tree
    (h : ∀ id ∈ layout.allFiles, ∃ leaf, modules.get? id = some leaf ∧ leaf.id = id) :
    (layout.tree modules).leaves.map Leaf.id = layout.allFiles := by
  rw [Tree.leaves, ← Layout.node_eq_toNode, Layout.leaves_node, map_id_filterMap_get? h]

section Trees

variable (h : fs.Charts config layout)
  (hmodules : ∀ id ∈ layout.allFiles, ∃ leaf, modules.get? id = some leaf ∧ leaf.id = id)
include h hmodules

/-- **Every directory in the tree of a chart shows its listing.** -/
theorem Charts.listing_of_mem_trees : ∀ s ∈ (layout.node modules).trees,
    fs.listing config s.path = .ok ⟨s.directories.map Tree.path, s.files.map Leaf.id⟩ := by
  induction h with
  | @mk path subdirs files hlisting _ ih =>
    simp only [Layout.allFiles, List.forall_mem_append, List.forall_mem_flatMap] at hmodules
    rw [Layout.trees_node, List.forall_mem_cons, List.forall_mem_flatMap]
    refine ⟨?_, fun sub hsub => ih sub hsub (hmodules.1 sub hsub)⟩
    have hpaths : (subdirs.map (Layout.tree modules)).map Tree.path = subdirs.map Layout.path := by
      rw [List.map_map]
      exact List.map_congr_left fun sub _ => sub.path_tree
    rw [Layout.path_tree, Layout.directories_tree, Layout.files_tree, hpaths,
      map_id_filterMap_get? hmodules.2]
    exact hlisting

/-- **Every directory in the tree of a chart is tidy**, since its listing is. -/
theorem Charts.isTidy : ∀ s ∈ (layout.node modules).trees, s.IsTidy := by
  intro s hs
  obtain ⟨⟨names, hsorted, hpaths, hnames⟩, names', hsorted', hfiles, hnames'⟩ :=
    names_of_listing_eq (h.listing_of_mem_trees hmodules s hs)
  exact
    { directories_first := Layout.children_of_mem_trees layout s hs
      directories_sorted := ⟨names, ⟨fun name hname => ((hnames name).mp hname).1.isPlainName,
        hsorted.imp bytesOf_lt⟩, hpaths⟩
      files_sorted := ⟨names', ⟨fun name hname => ((hnames' name).mp hname).isPlainName,
        hsorted'.imp bytesOf_lt⟩, hfiles⟩ }

end Trees

end FileSystem

end ImportAtlas
