import ImportAtlas.Proofs.Agreement
import ImportAtlas.Proofs.Mirror
import Mathlib.Data.List.Basic

/-!
# Proofs/Subwalk — a directory of a tree can be walked by itself

The layout of a directory below another one is a chart of the disk as the whole layout is
(`Charts.of_mem_layouts`), so a walk that starts there lists and analyses what the larger walk listed
and analysed there.  It reads fewer modules; but what it does not read any more the larger walk has
read, so that it is on the disk, and no import dangles (`exists_walk_of_mem_layouts`).  Links are a
matter of the list of modules alone: they are lost where the target is left out, and nowhere else.
-/

namespace ImportAtlas

variable {fs : FileSystem} {config : Config} {dir : Path} {layout sub : Layout} {id : ModuleId}
  {known known' : List ModuleId} {t part : DependencyTree} {s : Tree}
  {modules modules' : OrderedMap ModuleId Leaf}

/-! ## Leaves among fewer modules -/

/-- The record of an import of a file that is not among the modules. -/
def ImportRecord.unlink (r : ImportRecord) : ImportRecord :=
  { r with isMutual := false, resolved := none }

/-- **The leaf among fewer modules**: the records of files that are none of them are neither linked
nor mutual, and nothing else changes. -/
def Leaf.restrictTo (known : List ModuleId) (leaf : Leaf) : Leaf :=
  { leaf with
    imports := leaf.imports.mapValues fun target record =>
      if target ∈ known then record else record.unlink }

theorem Leaf.importOf?_restrictTo (known : List ModuleId) (leaf : Leaf) (target : ModuleId) :
    (leaf.restrictTo known).importOf? target = (leaf.importOf? target).map fun record =>
      if target ∈ known then record else record.unlink :=
  OrderedMap.get?_mapValues ..

namespace FileSystem

theorem linkRecord_of_notMem {e : Edge} (h : e.target ∉ known) (record : ImportRecord) :
    fs.linkRecord config known e record = record.unlink := by
  have hmutual : ¬ (e.target ∈ known ∧ e.importer ∈ fs.importsOf config e.target) :=
    fun hboth => h hboth.1
  rw [linkRecord, if_neg h, decide_eq_false hmutual, ImportRecord.unlink]

/-- **To link a leaf among fewer modules is to restrict it to them.** -/
theorem restrictTo_linkLeaf (hsub : ∀ b ∈ known', b ∈ known) (leaf : Leaf) :
    (fs.linkLeaf config known leaf).restrictTo known' = fs.linkLeaf config known' leaf := by
  have hrecord : ∀ target ∈ leaf.imports.keys, ∀ record : ImportRecord,
      (if target ∈ known' then fs.linkRecord config known ⟨leaf.id, target⟩ record
        else (fs.linkRecord config known ⟨leaf.id, target⟩ record).unlink)
        = fs.linkRecord config known' ⟨leaf.id, target⟩ record := by
    intro target _ record
    split
    · rename_i hmem
      exact linkRecord_congr (iff_of_true (hsub target hmem) hmem) record
    · rename_i hnot
      exact (linkRecord_of_notMem hnot record).symm
  simp only [linkLeaf, Leaf.restrictTo, OrderedMap.mapValues_mapValues,
    OrderedMap.mapValues_congr hrecord]

/-- Of two builds with modules in common, one has no others: its leaves are those of the other one,
restricted. -/
theorem Assembled.get?_eq_restrictTo (h : fs.Assembled config modules)
    (h' : fs.Assembled config modules') (hsub : ∀ id ∈ modules'.keys, id ∈ modules.keys)
    (hid : id ∈ modules'.keys) :
    modules'.get? id = (modules.get? id).map (Leaf.restrictTo modules'.keys) := by
  obtain ⟨raw, hraw, hget⟩ := h id (hsub id hid)
  obtain ⟨raw', hraw', hget'⟩ := h' id hid
  obtain rfl : raw = raw' := Except.ok.inj (hraw.symm.trans hraw')
  rw [hget, hget', Option.map_some, restrictTo_linkLeaf hsub]

end FileSystem

/-! ## Trees with other leaves -/

/-- The node with each leaf changed, and all else as it is. -/
def Node.mapLeaves (f : Leaf → Leaf) : Node → Node
  | directory path children => directory path (children.map (mapLeaves f))
  | file leaf => file (f leaf)

/-- The directory with each leaf changed, and all else as it is. -/
def Tree.mapLeaves (f : Leaf → Leaf) (t : Tree) : Tree :=
  ⟨t.path, t.children.map (Node.mapLeaves f)⟩

namespace Layout

/-- The layout of the directory and those of all directories below it. -/
def layouts : Layout → List Layout
  | mk path subdirs files => mk path subdirs files :: subdirs.flatMap layouts

/-- The directories of a tree are the trees of the layouts. -/
theorem trees_node_eq (modules : OrderedMap ModuleId Leaf) :
    ∀ layout : Layout, (layout.node modules).trees = layout.layouts.map (tree modules)
  | mk path subdirs files => by
    rw [trees_node, layouts, List.map_cons, List.map_flatMap]
    exact congrArg ((mk path subdirs files).tree modules :: List.flatten ·)
      (List.map_congr_left fun sub _ => trees_node_eq modules sub)

theorem fileNodes_mapLeaves {f : Leaf → Leaf} {files : List ModuleId}
    (h : ∀ id ∈ files, modules'.get? id = (modules.get? id).map f) :
    fileNodes modules' files = (fileNodes modules files).map (Node.mapLeaves f) := by
  rw [fileNodes, fileNodes, List.map_filterMap]
  refine List.filterMap_congr fun id hid => ?_
  rw [h id hid, Option.map_map, Option.map_map]
  refine congrArg (Option.map · _) (funext fun leaf => ?_)
  rw [Function.comp_apply, Function.comp_apply, Node.mapLeaves]

/-- A layout shows changed modules as changed leaves. -/
theorem node_mapLeaves {f : Leaf → Leaf} : ∀ layout : Layout,
    (∀ id ∈ layout.allFiles, modules'.get? id = (modules.get? id).map f) →
    layout.node modules' = (layout.node modules).mapLeaves f
  | mk path subdirs files, h => by
    simp only [allFiles, List.forall_mem_append, List.forall_mem_flatMap] at h
    rw [node, node, Node.mapLeaves, List.map_append, List.map_map, fileNodes_mapLeaves h.2]
    refine congrArg (fun nodes => Node.directory path (nodes ++ _)) ?_
    exact List.map_congr_left fun sub hsub => node_mapLeaves sub (h.1 sub hsub)

theorem tree_mapLeaves {f : Leaf → Leaf}
    (h : ∀ id ∈ layout.allFiles, modules'.get? id = (modules.get? id).map f) :
    layout.tree modules' = (layout.tree modules).mapLeaves f := by
  have hnode := node_mapLeaves layout h
  cases layout with
  | mk path subdirs files =>
    rw [node, node, Node.mapLeaves] at hnode
    rw [tree, tree, Tree.mapLeaves, (Node.directory.inj hnode).2]

end Layout

/-! ## Walks below a walk -/

/-- **The tree of a directory of a larger tree.**  It is what the larger tree shows there, its leaves
restricted to the modules below the directory; and so are its modules. -/
structure DependencyTree.IsPartOf (part : DependencyTree) (s : Tree) (t : DependencyTree) :
    Prop where
  root_eq : part.root = s.mapLeaves (Leaf.restrictTo part.modules.keys)
  ids_eq : part.modules.keys = s.leaves.map Leaf.id
  leaf_eq : ∀ id ∈ part.modules.keys,
    part.modules.get? id = (t.modules.get? id).map (Leaf.restrictTo part.modules.keys)

namespace FileSystem

/-- What a directory lists as a directory is one to start a walk at. -/
theorem HasDir.checkDir_eq {name : String} (h : fs.HasDir dir name) :
    fs.checkDir (dir.child name) = .ok () := by
  obtain ⟨_, m, _, _, hm, hdir⟩ := h
  rw [checkDir, hm]
  exact if_pos hdir

/-- **Each layout of a chart is a chart** of a directory that can be walked, with some of the
modules. -/
theorem Charts.of_mem_layouts (h : fs.Charts config layout)
    (hdir : fs.checkDir layout.path = .ok ()) (hsub : sub ∈ layout.layouts) :
    fs.Charts config sub ∧ fs.checkDir sub.path = .ok () ∧
      ∀ id ∈ sub.allFiles, id ∈ layout.allFiles := by
  induction h with
  | @mk path subdirs files hlisting hcharts ih =>
    rw [Layout.layouts, List.mem_cons, List.mem_flatMap] at hsub
    rcases hsub with rfl | ⟨below, hbelow, hsub⟩
    · exact ⟨.mk hlisting hcharts, hdir, fun _ hid => hid⟩
    · obtain ⟨name, ⟨hname, _⟩, hpath⟩ := name_of_mem_subdirs hlisting hbelow
      obtain ⟨hchart, hcheck, hfiles⟩ := ih below hbelow (hpath ▸ hname.checkDir_eq) hsub
      refine ⟨hchart, hcheck, fun id hid => ?_⟩
      rw [Layout.allFiles]
      exact List.mem_append_left _ (List.mem_flatMap.mpr ⟨below, hbelow, hfiles id hid⟩)

/-- **Below a walk that succeeds every walk succeeds.**  What is imported and not read any more is on
the disk: either the larger walk has read it, or it has looked for it. -/
theorem exists_walk_of_mem_layouts (hfs : fs.ShowsFiles) {d : Draft}
    (hcharts : fs.Charts config layout) (hdir : fs.checkDir layout.path = .ok ())
    (hsound : d.Sound fs config) (hkeys : d.modules.keys = layout.allFiles)
    (hdangling : d.danglingEdge? fs = none) (hsub : sub ∈ layout.layouts) :
    ∃ part, fs.walk config sub.path = .ok part := by
  obtain ⟨hchart, hcheck, hfiles⟩ := hcharts.of_mem_layouts hdir hsub
  have hread : ∀ id ∈ layout.allFiles, ∃ leaf, (fs.analyze config id).leaf = .ok leaf := by
    intro id hid
    obtain ⟨leaf, _, hleaf⟩ := hsound.mem_keys (hkeys ▸ hid)
    exact ⟨leaf, hleaf⟩
  have hfound : ∀ id ∈ sub.allFiles, ∀ target ∈ fs.modulesFrom config id,
      target ∈ sub.allFiles ∨ fs.isPresent target.path = true := by
    intro id hid target htarget
    refine Or.inr ?_
    have hknown := hsound.danglingEdge?_eq_none_iff.mp hdangling
    rcases hknown id (hkeys ▸ hfiles id hid) target htarget with hmem | hpresent
    · obtain ⟨leaf, hleaf⟩ := hread target (hkeys ▸ hmem)
      obtain ⟨bytes, hbytes⟩ := contents_of_analyze hleaf
      exact hfs target.path bytes hbytes
    · exact hpresent
  obtain ⟨part, hpart, _⟩ :=
    exists_walk hchart hcheck (fun id hid => hread id (hfiles id hid)) hfound
  exact ⟨part, hpart⟩

/-- **A walk that starts at a directory of a tree** succeeds, and its tree is the part of the larger
one that lies there. -/
theorem exists_part (hfs : fs.ShowsFiles) (h : fs.walk config dir = .ok t)
    (hs : s ∈ t.root.trees) : ∃ part, fs.walk config s.path = .ok part ∧ part.IsPartOf s t := by
  have hdir := checkDir_of_walk h
  obtain ⟨layout, d, rfl, hcharts, hsound, hkeys, hdangling, rfl⟩ := walk_eq_ok h
  rw [Tree.trees, ← Layout.node_eq_toNode, Layout.trees_node_eq] at hs
  obtain ⟨sub, hsub, rfl⟩ := List.mem_map.mp hs
  obtain ⟨hchart, _, hfiles⟩ := hcharts.of_mem_layouts hdir hsub
  obtain ⟨part, hpart⟩ :=
    exists_walk_of_mem_layouts hfs hcharts hdir hsound hkeys hdangling hsub
  obtain ⟨hroot, hids⟩ := hchart.eq_of_walk hpart
  have hassembled : fs.Assembled config d.link.modules := assembled_link hsound
  have hlink : d.link.modules.keys = layout.allFiles := by rw [Draft.keys_link, hkeys]
  have hleaf : ∀ id ∈ part.modules.keys, part.modules.get? id
      = (d.link.modules.get? id).map (Leaf.restrictTo part.modules.keys) := fun id hid =>
    hassembled.get?_eq_restrictTo (assembled_walk hpart)
      (fun other hother => hlink ▸ hfiles other (hids ▸ hother)) hid
  refine ⟨part, by rw [Layout.path_tree, hpart], ?_, ?_, hleaf⟩
  · rw [hroot]
    exact Layout.tree_mapLeaves fun id hid => hleaf id (hids ▸ hid)
  · have hregistered : ∀ id ∈ sub.allFiles,
        ∃ leaf, d.link.modules.get? id = some leaf ∧ leaf.id = id := fun id hid =>
      hassembled.registered id (hlink ▸ hfiles id hid)
    rw [hids, ids_leaves_tree hregistered]

/-- **Walks are compositional.**  If a walk of a directory succeeds then so does a walk of every
directory of its tree, and it answers the part of the tree that lies there: the same directories and
modules, all that is known about the modules being the same, except that imports of modules outside
of the smaller walk are neither linked nor mutual. -/
theorem walks_compositional (fs : FileSystem) (config : Config) (hfs : fs.ShowsFiles) :
    (∀ dir t, fs.walk config dir = .ok t → ∀ s ∈ t.root.trees,
      ∃ part, fs.walk config s.path = .ok part ∧ part.IsPartOf s t) ∧
    ∀ dir t, fs.dependencyTree config dir = .ok t → t.root.path.isAbsolute = true →
      ∀ s ∈ t.root.trees,
        ∃ part, fs.dependencyTree config s.path = .ok part ∧ part.IsPartOf s t := by
  refine ⟨fun dir t h s hs => exists_part hfs h hs, fun dir t h habsolute s hs => ?_⟩
  obtain ⟨top, htop, hwalk⟩ := walk_of_dependencyTree h
  have hmirrors := mirrors_of_walk hwalk (clean_of_absolute htop)
  rw [hmirrors.path_root] at habsolute
  obtain ⟨_, hbelow, _⟩ := (hmirrors.mem_directories s.path).mp (List.mem_map_of_mem hs)
  obtain ⟨hclean, hsAbsolute⟩ := hbelow.clean_eq (clean_of_absolute htop) habsolute
  obtain ⟨part, hpart, hpartOf⟩ := exists_part hfs hwalk hs
  refine ⟨part, ?_, hpartOf⟩
  rw [dependencyTree, absolute, if_pos hsAbsolute, hclean]
  exact hpart

end FileSystem

/-! ## A module in a directory of its own -/

namespace Memory

/-- A disk with two modules that import each other, one of them in a directory of its own. -/
def apart : Memory :=
  ((bare none).put ⟨"/a.ts"⟩ { kind := .file "import './d/b'".toUTF8 }).put ⟨"/d/b.ts"⟩
    { kind := .file "import '../a'".toUTF8 }

/-- The modules of the disk. -/
def upperA : ModuleId := ⟨⟨"/a.ts"⟩⟩
@[inherit_doc upperA] def lowerB : ModuleId := ⟨⟨"/d/b.ts"⟩⟩

/-- The layout of the disk. -/
def apartLayout : Layout := .mk ⟨"/"⟩ [.mk ⟨"/d"⟩ [] [lowerB]] [upperA]

theorem importsOf_apart : apart.toFileSystem.importsOf {} upperA = [lowerB] ∧
    apart.toFileSystem.importsOf {} lowerB = [upperA] := by
  decide +kernel

theorem charts_apart : apart.toFileSystem.Charts {} apartLayout := by
  have hroot : apart.toFileSystem.listing {} ⟨"/"⟩ = .ok ⟨[⟨"/d"⟩], [upperA]⟩ := by
    have hnames : apart.toFileSystem.names ⟨"/"⟩ = .ok ["a.ts", "d"] := rfl
    rw [FileSystem.listing_of_sorted hnames (by decide)]
    rfl
  have hbelow : apart.toFileSystem.listing {} ⟨"/d"⟩ = .ok ⟨[], [lowerB]⟩ := by
    have hnames : apart.toFileSystem.names ⟨"/d"⟩ = .ok ["b.ts"] := rfl
    rw [FileSystem.listing_of_sorted hnames (by decide)]
    rfl
  exact .mk hroot fun sub hsub => List.mem_singleton.mp hsub ▸ .mk hbelow (by simp)

/-- The tree of the disk. -/
theorem tree_apart : ∃ t, apart.toFileSystem.dependencyTree {} ⟨"/"⟩ = .ok t ∧
    t.modules.keys = [lowerB, upperA] := by
  have hself : apart.toFileSystem.IsSelfContained {} [lowerB, upperA] := by decide +kernel
  exact hself.exists_walk charts_apart (by simp [apartLayout, Layout.allFiles]) rfl

end Memory

namespace FileSystem

/-- Of two modules that import each other the lower one is walked by itself.  In the larger tree it
is linked both ways, in its own it is not. -/
theorem walks_compositional_apart : Memory.apart.toFileSystem.ShowsFiles ∧
    ∃ t part leaf record, Memory.apart.toFileSystem.dependencyTree {} ⟨"/"⟩ = .ok t ∧
      Memory.apart.toFileSystem.dependencyTree {} ⟨"/d"⟩ = .ok part ∧
      part.modules.keys = [Memory.lowerB] ∧
      t.modules.get? Memory.lowerB = some leaf ∧
      leaf.importOf? Memory.upperA = some record ∧ record.isMutual = true ∧
      part.modules.get? Memory.lowerB = some (leaf.restrictTo [Memory.lowerB]) ∧
      (leaf.restrictTo [Memory.lowerB]).importOf? Memory.upperA = some record.unlink := by
  have hfs := Memory.apart.showsFiles
  obtain ⟨t, ht, hkeys⟩ := Memory.tree_apart
  obtain ⟨_, hparts⟩ := walks_compositional Memory.apart.toFileSystem {} hfs
  obtain ⟨top, htop, hwalk⟩ := walk_of_dependencyTree ht
  obtain rfl : (⟨"/"⟩ : Path) = top := Except.ok.inj htop
  have hmirrors := mirrors_of_walk hwalk (clean_of_absolute htop)
  have hbelow : Memory.apart.toFileSystem.IsWalked {} ⟨"/"⟩ ⟨"/d"⟩ :=
    Memory.charts_apart.mem_dirs.mp (by simp [Memory.apartLayout, Layout.dirs])
  obtain ⟨s, hs, hpath⟩ := List.mem_map.mp ((hmirrors.mem_directories _).mpr hbelow)
  obtain ⟨part, hpart, hpartOf⟩ := hparts ⟨"/"⟩ t ht (by rw [hmirrors.path_root]; decide) s hs
  rw [hpath] at hpart
  have hids : part.modules.keys = [Memory.lowerB] := by
    have hsub : Layout.mk ⟨"/d"⟩ [] [Memory.lowerB] ∈ Memory.apartLayout.layouts := by
      simp [Memory.apartLayout, Layout.layouts]
    obtain ⟨hlower, _⟩ := Memory.charts_apart.of_mem_layouts rfl hsub
    obtain ⟨top, htop, hwalk⟩ := walk_of_dependencyTree hpart
    obtain rfl : (⟨"/d"⟩ : Path) = top := Except.ok.inj htop
    rw [(hlower.eq_of_walk hwalk).2]
    simp [Layout.allFiles]
  have htree := (Builds.tree ht).assembled
  obtain ⟨hupper, hlower⟩ := Memory.importsOf_apart
  obtain ⟨leaf, record, hleaf, hrecord⟩ := htree.exists_record_iff.mpr
    ⟨show Memory.lowerB ∈ t.modules.keys by simp [hkeys],
      show Memory.upperA ∈ _ by simp [hlower]⟩
  have hmutual : record.isMutual = true := (htree.isMutual_iff hleaf hrecord).mpr
    (htree.exists_record_iff.mpr ⟨by simp [hkeys], by simp [hupper]⟩)
  have hpartLeaf := hpartOf.leaf_eq Memory.lowerB (by simp [hids])
  rw [hids, hleaf] at hpartLeaf
  refine ⟨hfs, t, part, leaf, record, ht, hpart, hids, hleaf, hrecord, hmutual, hpartLeaf, ?_⟩
  have hout : Memory.upperA ∉ [Memory.lowerB] := by decide
  rw [Leaf.importOf?_restrictTo, hrecord, Option.map_some, if_neg hout]

end FileSystem

end ImportAtlas
