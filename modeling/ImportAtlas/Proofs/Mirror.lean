import ImportAtlas.Proofs.ListingOrder

/-!
# Proofs/Mirror — a tree mirrors the disk below its directory

`DependencyTree.Mirrors` lists what it means for a tree to show what lies below a directory,
nothing left out and nothing twice.  The tree of every walk does so (`FileSystem.mirrors_of_walk`),
and it is the same tree in whatever order the disk lists its names.
-/

namespace ImportAtlas

variable {fs : FileSystem} {config : Config} {dir q : Path} {names : List String}
  {t : DependencyTree} {layout : Layout} {modules : OrderedMap ModuleId Leaf}

/-- **A tree that shows what lies below a directory.**  Its directories are those that a walk
enters and its leaves are the module files directly in them, each once; every directory is in good
order; and its leaves, from the left to the right, are the modules of the tree. -/
structure DependencyTree.Mirrors (fs : FileSystem) (config : Config) (top : Path)
    (t : DependencyTree) : Prop where
  path_root : t.root.path = top
  nodup_directories : (t.root.trees.map Tree.path).Nodup
  mem_directories : ∀ q, q ∈ t.root.trees.map Tree.path ↔ fs.IsWalked config top q
  nodup_leaves : (t.root.leaves.map Leaf.id).Nodup
  mem_leaves : ∀ id, id ∈ t.root.leaves.map Leaf.id ↔ fs.IsWalkedModule config top id
  tidy : ∀ s ∈ t.root.trees, s.IsTidy
  /-- Seen from the root of the disk, the path of a leaf is that of its directory and its name. -/
  leaf_paths : top.isAbsolute = true → ∀ s ∈ t.root.trees, ∀ leaf ∈ s.files,
    ∃ name, Path.isPlainName name = true ∧ leaf.id.path = s.path.child name
  leaves_eq : t.root.leaves = t.modules.values
  ids_eq : t.root.leaves.map Leaf.id = t.modules.keys
  fileCount_eq : t.root.fileCount = t.modules.size

namespace FileSystem

/-- Below a clean directory that is seen from the root all directories are clean. -/
theorem DirAt.clean_eq (h : fs.DirAt dir names q) (hdir : dir.clean = dir)
    (habsolute : dir.isAbsolute = true) : q.clean = q ∧ q.isAbsolute = true := by
  induction h with
  | here => exact ⟨hdir, habsolute⟩
  | inside hname _ ih =>
    have hplain := hname.isPlainName
    exact ih (Path.clean_child hdir habsolute hplain) (by rwa [Path.isAbsolute_child hplain])

/-- The modules of a finished build are registered under their own identities. -/
theorem Assembled.registered (h : fs.Assembled config modules) :
    ∀ id ∈ modules.keys, ∃ leaf, modules.get? id = some leaf ∧ leaf.id = id := by
  intro id hid
  obtain ⟨leaf, hget⟩ := OrderedMap.exists_get?_of_mem hid
  exact ⟨leaf, hget, h.id_eq hget⟩

/-- **The directories of a walk show their listings.** -/
theorem listing_of_walk {s : Tree} (h : fs.walk config dir = .ok t) (hs : s ∈ t.root.trees) :
    fs.listing config s.path = .ok ⟨s.directories.map Tree.path, s.files.map Leaf.id⟩ := by
  obtain ⟨layout, d, rfl, hcharts, hsound, hkeys, _, rfl⟩ := walk_eq_ok h
  have hregistered := (assembled_link hsound).registered
  rw [Draft.keys_link, hkeys] at hregistered
  rw [Tree.trees, ← Layout.node_eq_toNode] at hs
  exact hcharts.listing_of_mem_trees hregistered s hs

/-- **The tree of a walk mirrors the disk.** -/
theorem mirrors_of_walk (h : fs.walk config dir = .ok t) (hdir : dir.clean = dir) :
    t.Mirrors fs config dir := by
  obtain ⟨layout, d, rfl, hcharts, hsound, hkeys, _, rfl⟩ := walk_eq_ok h
  have hlink : d.link.modules.keys = layout.allFiles := by rw [Draft.keys_link, hkeys]
  have hregistered := (assembled_link hsound).registered
  rw [hlink] at hregistered
  have htrees : (layout.tree d.link.modules).trees.map Tree.path = layout.dirs := by
    rw [Tree.trees, ← Layout.node_eq_toNode, Layout.paths_trees]
  have hleaves : (layout.tree d.link.modules).leaves = d.link.modules.values := by
    rw [Tree.leaves, ← Layout.node_eq_toNode, Layout.leaves_node, ← hlink,
      OrderedMap.filterMap_get?_keys]
  have hids : (layout.tree d.link.modules).leaves.map Leaf.id = layout.allFiles :=
    ids_leaves_tree hregistered
  have htidy : ∀ s ∈ (layout.tree d.link.modules).trees, s.IsTidy := by
    rw [Tree.trees, ← Layout.node_eq_toNode]
    exact hcharts.isTidy hregistered
  refine
    { path_root := layout.path_tree
      nodup_directories := htrees ▸ hcharts.nodup_dirs
      mem_directories := fun q => htrees ▸ hcharts.mem_dirs
      nodup_leaves := hids ▸ hcharts.nodup_allFiles
      mem_leaves := fun id => hids ▸ hcharts.mem_allFiles
      tidy := htidy
      leaf_paths := fun habsolute s hs leaf hleaf => ?_
      leaves_eq := hleaves
      ids_eq := hids.trans hlink.symm
      fileCount_eq := ?_ }
  · obtain ⟨names, ⟨hplain, _⟩, hfiles⟩ := (htidy s hs).files_sorted
    have hid : leaf.id ∈ s.files.map Leaf.id := List.mem_map_of_mem hleaf
    rw [hfiles] at hid
    obtain ⟨name, hname, hid⟩ := List.mem_map.mp hid
    have hwalked : s.path ∈ layout.dirs := htrees ▸ List.mem_map_of_mem hs
    obtain ⟨_, hbelow, _⟩ := hcharts.mem_dirs.mp hwalked
    obtain ⟨hclean, habsolute⟩ := hbelow.clean_eq hdir habsolute
    exact ⟨name, hplain name hname, by
      rw [← hid, ModuleId.ofPath, Path.clean_child hclean habsolute (hplain name hname)]⟩
  · have hlength : (layout.tree d.link.modules).leaves.length = d.link.modules.size := by
      rw [hleaves, OrderedMap.values, List.length_map, OrderedMap.size]
    rw [Tree.fileCount, Node.fileCount_eq, ← Tree.leaves, hlength]

/-- **A tree mirrors the disk below its directory**, and tree and errors are the same in whatever
order the disk lists the names in its directories. -/
theorem dependencyTree_mirrors (fs : FileSystem) (config : Config) (dir : Path) :
    (∀ t, fs.dependencyTree config dir = .ok t →
      ∃ top, fs.absolute dir = .ok top ∧ t.Mirrors fs config top) ∧
    ∀ fs', fs.SameDisk fs' → fs.dependencyTree config dir = fs'.dependencyTree config dir := by
  refine ⟨fun t h => ?_, fun fs' hsame => hsame.dependencyTree_eq config dir⟩
  obtain ⟨top, htop, hwalk⟩ := walk_of_dependencyTree h
  exact ⟨top, htop, mirrors_of_walk hwalk (clean_of_absolute htop)⟩

end FileSystem

/-! ## A disk with all kinds of entries -/

namespace Memory

/-- A disk with directories at two levels, a vendor directory and a file that is no module.  What is
in a directory is listed in no order. -/
def mingled : Memory :=
  ((((((bare none).put ⟨"/z.ts"⟩ { kind := .file "import './src/b'".toUTF8 }).put
    ⟨"/src/deep/d.ts"⟩ { kind := .file "".toUTF8 }).put
    ⟨"/src/b.ts"⟩ { kind := .file "import '../a'; import './deep/d'".toUTF8 }).put
    ⟨"/notes.txt"⟩ { kind := .file "".toUTF8 }).put
    ⟨"/node_modules/c.ts"⟩ { kind := .file "".toUTF8 }).put
    ⟨"/a.ts"⟩ { kind := .file "import 'c'".toUTF8 }

/-- The modules of the disk, but for the one in the vendor directory. -/
def mingledFiles : List ModuleId :=
  [⟨⟨"/src/deep/d.ts"⟩⟩, ⟨⟨"/src/b.ts"⟩⟩, ⟨⟨"/a.ts"⟩⟩, ⟨⟨"/z.ts"⟩⟩]

/-- The layout of the disk. -/
def mingledLayout : Layout :=
  .mk ⟨"/"⟩ [.mk ⟨"/src"⟩ [.mk ⟨"/src/deep"⟩ [] [⟨⟨"/src/deep/d.ts"⟩⟩]] [⟨⟨"/src/b.ts"⟩⟩]]
    [⟨⟨"/a.ts"⟩⟩, ⟨⟨"/z.ts"⟩⟩]

theorem charts_mingled : mingled.toFileSystem.Charts {} mingledLayout := by
  have hroot : mingled.toFileSystem.listing {} ⟨"/"⟩
      = .ok ⟨[⟨"/src"⟩], [⟨⟨"/a.ts"⟩⟩, ⟨⟨"/z.ts"⟩⟩]⟩ := by
    have hnames : mingled.toFileSystem.names ⟨"/"⟩
        = .ok ["z.ts", "src", "notes.txt", "node_modules", "a.ts"] := rfl
    have hperm : ["z.ts", "src", "notes.txt", "node_modules", "a.ts"].Perm
        ["a.ts", "node_modules", "notes.txt", "src", "z.ts"] := by decide
    rw [FileSystem.listing_of_perm hnames hperm (by decide)]
    rfl
  have hsrc : mingled.toFileSystem.listing {} ⟨"/src"⟩
      = .ok ⟨[⟨"/src/deep"⟩], [⟨⟨"/src/b.ts"⟩⟩]⟩ := by
    have hnames : mingled.toFileSystem.names ⟨"/src"⟩ = .ok ["deep", "b.ts"] := rfl
    have hperm : ["deep", "b.ts"].Perm ["b.ts", "deep"] := by decide
    rw [FileSystem.listing_of_perm hnames hperm (by decide)]
    rfl
  have hdeep : mingled.toFileSystem.listing {} ⟨"/src/deep"⟩
      = .ok ⟨[], [⟨⟨"/src/deep/d.ts"⟩⟩]⟩ := by
    have hnames : mingled.toFileSystem.names ⟨"/src/deep"⟩ = .ok ["d.ts"] := rfl
    rw [FileSystem.listing_of_sorted hnames (by decide)]
    rfl
  refine .mk hroot fun sub hsub => ?_
  obtain rfl := List.mem_singleton.mp hsub
  refine .mk hsrc fun sub hsub => ?_
  obtain rfl := List.mem_singleton.mp hsub
  exact .mk hdeep (by simp)

theorem tree_mingled : ∃ t, mingled.toFileSystem.dependencyTree {} ⟨"/"⟩ = .ok t ∧
    t.modules.keys = mingledFiles ∧ t.root.trees.map Tree.path = [⟨"/"⟩, ⟨"/src"⟩, ⟨"/src/deep"⟩] := by
  have hself : mingled.toFileSystem.IsSelfContained {} mingledFiles := by decide +kernel
  obtain ⟨t, ht, hkeys⟩ := hself.exists_walk charts_mingled
    (by simp [mingledLayout, mingledFiles, Layout.allFiles]) rfl
  refine ⟨t, ht, hkeys, ?_⟩
  rw [(charts_mingled.eq_of_walk ht).1, Tree.trees, ← Layout.node_eq_toNode, Layout.paths_trees]
  simp [mingledLayout, Layout.dirs]

end Memory

namespace FileSystem

/-- The tree shows the directories and the modules in the order of their names, but not the vendor
directory and the file that is no module; and it is the same tree if all is listed the other way
round. -/
theorem mirrors_mingled : ∃ t, Memory.mingled.toFileSystem.dependencyTree {} ⟨"/"⟩ = .ok t ∧
    Memory.mingled.reverse.toFileSystem.dependencyTree {} ⟨"/"⟩ = .ok t ∧
    t.Mirrors Memory.mingled.toFileSystem {} ⟨"/"⟩ ∧
    t.root.trees.map Tree.path = [⟨"/"⟩, ⟨"/src"⟩, ⟨"/src/deep"⟩] ∧
    t.root.leaves.map Leaf.id = Memory.mingledFiles := by
  obtain ⟨t, ht, hkeys, hpaths⟩ := Memory.tree_mingled
  obtain ⟨hmirrors, hsame⟩ := dependencyTree_mirrors Memory.mingled.toFileSystem {} ⟨"/"⟩
  obtain ⟨top, htop, hmirror⟩ := hmirrors t ht
  obtain rfl : (⟨"/"⟩ : Path) = top := Except.ok.inj htop
  have hreverse := hsame _ Memory.mingled.sameDisk_reverse
  exact ⟨t, ht, hreverse.symm.trans ht, hmirror, hpaths, hmirror.ids_eq.trans hkeys⟩

end FileSystem

end ImportAtlas
