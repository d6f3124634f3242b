import ImportAtlas.Proofs.Subwalk

/-!
# Proofs/Placement — which imports of a walk are linked, read off the disk

What a disk in memory holds below a directory is said in terms of its entries alone
(`Memory.LiesBelow`).  A walk that succeeds has met no fault, so that its modules are exactly the
project files of its directory (`Memory.mem_keys_iff`), and an identity that a specifier is resolved
to can be looked up among them as it stands.  Hence an import is linked exactly if it leads to a
project file; the others lead at least to something that is there.
-/

namespace ImportAtlas

variable {m : Memory} {config : Config} {dir p q top : Path} {names : List String} {name : String}
  {layout : Layout} {t : DependencyTree} {id target : ModuleId} {e : Memory.Entry} {l : Listing}

/-! ## What a walk has met -/

namespace FileSystem

variable {fs : FileSystem}

/-- Of all that a directory lists the metadata can be had, if the directory is listed with
success. -/
theorem metadata_of_listing (h : fs.listing config dir = .ok l) :
    ∃ listed, fs.names dir = .ok listed ∧
      ∀ name ∈ listed, ∃ data, fs.metadata (dir.child name) = .ok data := by
  unfold listing at h
  split at h
  · nomatch h
  · rename_i listed hlisted
    cases hes : fs.entriesOf dir (Listing.sortNames listed) with
    | error e => simp [hes, Except.map] at h
    | ok es =>
      refine ⟨listed, hlisted, fun name hname => ?_⟩
      rw [← (Listing.sortNames_perm listed).mem_iff, ← map_fst_entriesOf hes] at hname
      obtain ⟨entry, hentry, rfl⟩ := List.mem_map.mp hname
      exact ⟨entry.2, metadata_of_mem_entriesOf hes hentry⟩

end FileSystem

/-! ## What lies on the disk -/

namespace Memory

/-- **What lies below a directory of the disk**, and the names of the directories on the way to
it. -/
inductive LiesBelow (m : Memory) : Path → List String → Path → Prop
  | entry {dir : Path} {name : String} (hname : Path.isPlainName name = true) :
      LiesBelow m dir [] (dir.child name)
  | inside {dir p : Path} {name : String} {names : List String}
      (hname : Path.isPlainName name = true)
      (hdir : ∃ e, m.entries.get? (dir.child name) = some e ∧ e.isDir = true)
      (h : LiesBelow m (dir.child name) names p) : LiesBelow m dir (name :: names) p

/-- A regular file with an extension of the table. -/
def IsModuleAt (m : Memory) (p : Path) : Prop :=
  (∃ e, m.entries.get? p = some e ∧ e.metadata.isFile = true) ∧ p.isModuleFile = true

/-- **The module files of a project**: those below its directory without a vendor directory on the
way to them. -/
def IsProjectFile (m : Memory) (config : Config) (top p : Path) : Prop :=
  m.IsModuleAt p ∧ ∃ names, m.LiesBelow top names p ∧ ∀ name ∈ names, config.isVendorDir name = false

theorem Entry.isDir_of_isFile (h : e.metadata.isFile = true) : e.isDir = false := by
  cases hkind : e.kind <;> simp_all [Entry.metadata, Entry.isDir]

theorem LiesBelow.clean_eq (h : m.LiesBelow dir names p) (hdir : dir.clean = dir)
    (habsolute : dir.isAbsolute = true) : p.clean = p := by
  induction h with
  | entry hname => exact Path.clean_child hdir habsolute hname
  | inside hname _ _ ih =>
    exact ih (Path.clean_child hdir habsolute hname) (by rwa [Path.isAbsolute_child hname])

/-- What lies directly in a directory that is listed with success shows no fault. -/
theorem noFaults_of_listing (hdir : dir.clean = dir) (habsolute : dir.isAbsolute = true)
    (h : m.toFileSystem.listing config dir = .ok l) (hname : Path.isPlainName name = true)
    (he : m.entries.get? (dir.child name) = some e) :
    (∃ e, m.entries.get? dir = some e ∧ e.readFault = none) ∧ e.metadataFault = none := by
  obtain ⟨listed, hlisted, hmetadata⟩ := FileSystem.metadata_of_listing h
  obtain ⟨hread, rfl⟩ := names_eq_ok_iff.mp hlisted
  have hmem : name ∈ namesIn m.entries.keys dir.clean :=
    mem_namesIn.mpr ⟨hname, hdir.symm ▸ OrderedMap.mem_keys_of_get? he⟩
  obtain ⟨data, hdata⟩ := hmetadata name hmem
  obtain ⟨e', he', hfault, _⟩ := metadata_eq_ok_iff.mp hdata
  rw [find?, Path.clean_child hdir habsolute hname, he] at he'
  obtain rfl : e = e' := Option.some.inj he'
  rw [find?, hdir] at hread
  exact ⟨hread, hfault⟩

/-- **A chart has what the disk holds below its directory**, unless a vendor directory stands on the
way to it. -/
theorem mem_allFiles_of_liesBelow (h : m.LiesBelow dir names p)
    (hnames : ∀ name ∈ names, config.isVendorDir name = false) (hmodule : m.IsModuleAt p)
    (hdir : dir.clean = dir) (habsolute : dir.isAbsolute = true)
    (hcharts : m.toFileSystem.Charts config layout) (hpath : layout.path = dir) :
    ModuleId.ofPath p ∈ layout.allFiles := by
  induction h generalizing layout with
  | @entry dir name hname =>
    obtain ⟨⟨e, he, hfile⟩, hextension⟩ := hmodule
    cases hcharts with
    | mk hlisting _ =>
      obtain rfl := hpath
      obtain ⟨hread, hfault⟩ := noFaults_of_listing hdir habsolute hlisting hname he
      rw [Layout.allFiles, List.mem_append]
      refine Or.inr ((FileSystem.mem_files_iff hlisting).mpr ⟨name, ?_, rfl⟩)
      exact (hasModule_iff hdir habsolute).mpr
        ⟨hname, hread, e, he, hfault, Entry.isDir_of_isFile hfile, hfile, hextension⟩
  | @inside dir p name names hname hentry _ ih =>
    obtain ⟨hvendor, hnames⟩ := List.forall_mem_cons.mp hnames
    obtain ⟨e, he, hisDir⟩ := hentry
    cases hcharts with
    | mk hlisting hcharts =>
      obtain rfl := hpath
      obtain ⟨hread, hfault⟩ := noFaults_of_listing hdir habsolute hlisting hname he
      have hhas := (hasDir_iff hdir habsolute).mpr ⟨hname, hread, e, he, hfault, hisDir⟩
      obtain ⟨sub, hsub, hpath⟩ := FileSystem.exists_mem_subdirs hlisting ⟨hhas, hvendor⟩
      rw [Layout.allFiles, List.mem_append, List.mem_flatMap]
      exact Or.inl ⟨sub, hsub, ih hnames hmodule (Path.clean_child hdir habsolute hname)
        (by rwa [Path.isAbsolute_child hname]) (hcharts sub hsub) hpath⟩

theorem liesBelow_of_dirAt (h : m.toFileSystem.DirAt dir names q) (hdir : dir.clean = dir)
    (habsolute : dir.isAbsolute = true) (hname : Path.isPlainName name = true) :
    m.LiesBelow dir names (q.child name) := by
  induction h with
  | here => exact .entry hname
  | inside hhas _ ih =>
    obtain ⟨hplain, _, e, he, _, hisDir⟩ := (hasDir_iff hdir habsolute).mp hhas
    exact .inside hplain ⟨e, he, hisDir⟩
      (ih (Path.clean_child hdir habsolute hplain) (by rwa [Path.isAbsolute_child hplain]))

/-- What a walk analyses is a file of the project. -/
theorem isProjectFile_of_isWalkedModule (h : m.toFileSystem.IsWalkedModule config top id)
    (htop : top.clean = top) (habsolute : top.isAbsolute = true) :
    m.IsProjectFile config top id.path := by
  obtain ⟨q, name, ⟨names, hdirAt, hnames⟩, hmodule, rfl⟩ := h
  obtain ⟨hq, hqAbsolute⟩ := hdirAt.clean_eq htop habsolute
  have hpath : (ModuleId.ofPath (q.child name)).path = q.child name :=
    Path.clean_child hq hqAbsolute hmodule.isPlainName
  obtain ⟨hplain, _, e, he, _, _, hfile, hextension⟩ := (hasModule_iff hq hqAbsolute).mp hmodule
  rw [hpath]
  exact ⟨⟨⟨e, he, hfile⟩, hextension⟩, names, liesBelow_of_dirAt hdirAt htop habsolute hplain, hnames⟩

/-- **The modules of a walk are the project files of its directory.** -/
theorem mem_keys_iff (h : m.toFileSystem.walk config top = .ok t) (htop : top.clean = top)
    (habsolute : top.isAbsolute = true) (hid : ModuleId.ofPath id.path = id) :
    id ∈ t.modules.keys ↔ m.IsProjectFile config top id.path := by
  constructor
  · intro hmem
    exact isProjectFile_of_isWalkedModule ((FileSystem.mem_keys_walk h).mp hmem) htop habsolute
  · rintro ⟨hmodule, names, hbelow, hnames⟩
    obtain ⟨layout, d, hpath, hcharts, _, hkeys, _, rfl⟩ := FileSystem.walk_eq_ok h
    rw [Draft.keys_link, hkeys, ← hid]
    exact mem_allFiles_of_liesBelow hbelow hnames hmodule htop habsolute hcharts hpath

/-! ## Links -/

variable {leaf : Leaf} {record : ImportRecord}

/-- What a module of a walk imports is there, if it is a module file. -/
theorem exists_entry_of_import (h : m.toFileSystem.walk config top = .ok t) (htop : top.clean = top)
    (habsolute : top.isAbsolute = true) (hid : id ∈ t.modules.keys)
    (himport : target ∈ m.toFileSystem.importsOf config id)
    (hextension : target.path.isModuleFile = true) : ∃ e, m.entries.get? target.path = some e := by
  have htarget := FileSystem.ofPath_of_mem_importsOf himport
  have hmodules := FileSystem.mem_modulesFrom.mpr ⟨himport, hextension⟩
  rcases FileSystem.present_of_walk h hid hmodules with hmem | hpresent
  · obtain ⟨⟨⟨e, he, _⟩, _⟩, _⟩ := (mem_keys_iff h htop habsolute htarget).mp hmem
    exact ⟨e, he⟩
  · have hclean : target.path.clean = target.path := congrArg ModuleId.path htarget
    change (m.find? target.path).isSome = true at hpresent
    rw [find?, hclean] at hpresent
    exact Option.isSome_iff_exists.mp hpresent

/-- **A walk links what it can.**  An import is linked, and then to its target, exactly if the target
is a project file: a regular file with an extension of the table that lies below the directory of
the walk without a vendor directory on the way.  A module file that is not linked is there all the
same.  And however a specifier is spelled, it is resolved to a module of the walk exactly if it is
resolved to a project file, and then to the identity under which the walk has registered that
file.  (The root of a tree is absolute unless the working directory of the disk is not.) -/
theorem links_are_complete (m : Memory) (config : Config) {dir : Path} {t : DependencyTree}
    (h : m.toFileSystem.dependencyTree config dir = .ok t)
    (habsolute : t.root.path.isAbsolute = true) :
    (∀ a leaf target record, t.modules.get? a = some leaf →
      leaf.importOf? target = some record →
      (record.resolved = some target ↔ m.IsProjectFile config t.root.path target.path) ∧
      (record.isLinked = true ↔ m.IsProjectFile config t.root.path target.path) ∧
      (record.isLinked = false → target.path.isModuleFile = true →
        ∃ e, m.entries.get? target.path = some e)) ∧
    ∀ vendorDirs importer specifier target,
      m.toFileSystem.resolve vendorDirs importer specifier = .ok (.file target) →
      (target ∈ t.modules.keys ↔ m.IsProjectFile config t.root.path target.path) ∧
      ∀ id ∈ t.modules.keys, id.path.clean = target.path.clean → id = target := by
  obtain ⟨top, habs, hwalk⟩ := FileSystem.walk_of_dependencyTree h
  have htop := FileSystem.clean_of_absolute habs
  have hroot : t.root.path = top := (FileSystem.mirrors_of_walk hwalk htop).path_root
  rw [hroot] at habsolute ⊢
  refine ⟨fun a leaf target record hleaf hrecord => ?_, fun _ _ _ target hresolve => ?_⟩
  · have hassembled := FileSystem.assembled_walk hwalk
    obtain ⟨ha, himport⟩ := hassembled.exists_record_iff.mp ⟨leaf, record, hleaf, hrecord⟩
    have hkeys := mem_keys_iff hwalk htop habsolute (FileSystem.ofPath_of_mem_importsOf himport)
    rw [ImportRecord.isLinked, hassembled.resolved_eq hleaf hrecord, ← hkeys]
    refine ⟨by simp, by simp, fun _ hextension => ?_⟩
    exact exists_entry_of_import hwalk htop habsolute ha himport hextension
  · have htarget := FileSystem.ofPath_of_resolve hresolve
    refine ⟨mem_keys_iff hwalk htop habsolute htarget, fun id hid heq => ?_⟩
    have hclean : id.path.clean = id.path := FileSystem.clean_of_mem_tree hwalk hid
    rw [hclean] at heq
    exact (congrArg ModuleId.mk heq).trans htarget

/-- The lower of two modules that import each other has a tree of its own. -/
theorem tree_lower : ∃ t, apart.toFileSystem.dependencyTree {} ⟨"/d"⟩ = .ok t ∧
    t.modules.keys = [lowerB] := by
  have hsub : Layout.mk ⟨"/d"⟩ [] [lowerB] ∈ apartLayout.layouts := by
    simp [apartLayout, Layout.layouts]
  obtain ⟨hlower, hcheck, _⟩ := charts_apart.of_mem_layouts rfl hsub
  have hfiles : (Layout.mk ⟨"/d"⟩ [] [lowerB]).allFiles = [lowerB] := by simp [Layout.allFiles]
  have hwalk := FileSystem.exists_walk hlower hcheck
  simp only [hfiles, List.mem_singleton, forall_eq] at hwalk
  refine hwalk (exists_eq_ok_of_isOk (by decide +kernel)) fun target htarget => Or.inr ?_
  have himport := (FileSystem.mem_modulesFrom.mp htarget).1
  rw [importsOf_apart.2, List.mem_singleton] at himport
  rw [himport]
  decide +kernel

/-- The import of the upper module by the lower one is linked where both are walked.  Where only the
lower one is, the upper one is no project file; it is there, but it is not linked. -/
theorem links_are_complete_apart :
    (∃ t, apart.toFileSystem.dependencyTree {} ⟨"/"⟩ = .ok t ∧ t.root.path.isAbsolute = true ∧
      apart.IsProjectFile {} t.root.path upperA.path) ∧
    ∃ t leaf record, apart.toFileSystem.dependencyTree {} ⟨"/d"⟩ = .ok t ∧
      t.root.path.isAbsolute = true ∧ t.modules.get? lowerB = some leaf ∧
      leaf.importOf? upperA = some record ∧ record.isLinked = false ∧
      ¬ apart.IsProjectFile {} t.root.path upperA.path ∧
      ∃ e, apart.entries.get? upperA.path = some e := by
  have hroot {dir : Path} {t : DependencyTree} (habsolute : dir.isAbsolute = true)
      (hclean : dir.clean = dir) (h : apart.toFileSystem.dependencyTree {} dir = .ok t) :
      t.root.path.isAbsolute = true := by
    obtain ⟨top, htop, hwalk⟩ := FileSystem.walk_of_dependencyTree h
    obtain rfl : dir = top := by
      rw [FileSystem.absolute, if_pos habsolute, hclean] at htop
      exact Except.ok.inj htop
    rwa [(FileSystem.mirrors_of_walk hwalk hclean).path_root]
  have hrecord {dir : Path} {t : DependencyTree}
      (h : apart.toFileSystem.dependencyTree {} dir = .ok t) (hmem : lowerB ∈ t.modules.keys) :=
    (FileSystem.Builds.tree h).assembled.exists_record_iff.mpr
      ⟨hmem, show upperA ∈ _ by simp [importsOf_apart.2]⟩
  constructor
  · obtain ⟨t, ht, hkeys⟩ := tree_apart
    have habsolute := hroot (by decide) (by decide +kernel) ht
    obtain ⟨leaf, record, hleaf, himport⟩ := hrecord ht (by simp [hkeys])
    obtain ⟨hlinks, _⟩ := links_are_complete apart {} ht habsolute
    have hresolved := (FileSystem.Builds.tree ht).assembled.resolved_eq hleaf himport
    rw [hkeys, if_pos (by simp)] at hresolved
    exact ⟨t, ht, habsolute, (hlinks _ leaf _ record hleaf himport).1.mp hresolved⟩
  · obtain ⟨t, ht, hkeys⟩ := tree_lower
    have habsolute := hroot (by decide) (by decide +kernel) ht
    obtain ⟨leaf, record, hleaf, himport⟩ := hrecord ht (by simp [hkeys])
    obtain ⟨hlinks, _⟩ := links_are_complete apart {} ht habsolute
    obtain ⟨_, hlinked, hpresent⟩ := hlinks _ leaf _ record hleaf himport
    have hunlinked : record.isLinked = false := by
      rw [ImportRecord.isLinked, (FileSystem.Builds.tree ht).assembled.resolved_eq hleaf himport,
        hkeys, if_neg (by decide)]
      rfl
    refine ⟨t, leaf, record, ht, habsolute, hleaf, himport, hunlinked, ?_,
      hpresent hunlinked (by decide +kernel)⟩
    rw [← hlinked, hunlinked]
    exact Bool.false_ne_true

end Memory

end ImportAtlas
