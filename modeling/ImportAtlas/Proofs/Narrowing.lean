import ImportAtlas.Proofs.Containment
import ImportAtlas.Proofs.Mirror
import ImportAtlas.Proofs.Records

/-!
# Proofs/Narrowing — with more vendor directories a build only becomes smaller

A vendor directory more makes some specifiers external and leaves all others as they are
(`resolve_of_addsVendors`).  So each record loses some of its statements, each module some of its
records, and each build some of its modules.  A walk might fail for lack of a module that it does not
read any more; it does not, since a module that is still walked has lost the imports that lead to such
a module (`isWalkedModule_of_import`).  Which names are vendor directories is all that counts: in
whatever order and however often they are given, builds and errors are the same.
-/

namespace ImportAtlas

variable {fs : FileSystem} {fewer more : Config} {dir entry top q importer : Path}
  {specifier : String} {id target root : ModuleId} {t : DependencyTree} {g : ModuleGraph}
  {modules modules' : OrderedMap ModuleId Leaf} {leaf leaf' : Leaf} {layout : Layout} {l : Listing}

/-! ## Parts of a build -/

/-- The same choices, but for vendor directories that may be added. -/
structure Config.AddsVendors (fewer more : Config) : Prop where
  maxFileSize_eq : more.maxFileSize = fewer.maxFileSize
  subset : ∀ name ∈ fewer.vendorDirs, name ∈ more.vendorDirs

/-- A record of some of the statements of another one, linked as far as that one is. -/
structure ImportRecord.Narrows (r s : ImportRecord) : Prop where
  specifiers : r.specifiers.Sublist s.specifiers
  bindings : r.bindings.Sublist s.bindings
  resolved : ∀ target, r.resolved = some target → s.resolved = some target
  isMutual : r.isMutual = true → s.isMutual = true

/-- A leaf with parts of some of the records of another one, and the same in all else. -/
structure Leaf.Narrows (x y : Leaf) : Prop where
  id_eq : x.id = y.id
  dialect_eq : x.dialect = y.dialect
  exports_eq : x.exports = y.exports
  records : ∀ target r, x.importOf? target = some r →
    ∃ s, y.importOf? target = some s ∧ r.Narrows s

/-- **Modules that are parts of some of the modules of another build.** -/
def AreNarrowed (modules modules' : OrderedMap ModuleId Leaf) : Prop :=
  ∀ id x, modules.get? id = some x → ∃ y, modules'.get? id = some y ∧ x.Narrows y

/-- A directory of a tree with the modules of another one and some of its directories. -/
structure Tree.Narrows (x y : Tree) : Prop where
  path_eq : x.path = y.path
  files_eq : x.files.map Leaf.id = y.files.map Leaf.id
  directories : ∀ q ∈ x.directories.map Tree.path, q ∈ y.directories.map Tree.path

/-- **A tree that is a part of another one.** -/
structure DependencyTree.Narrows (x y : DependencyTree) : Prop where
  path_root : x.root.path = y.root.path
  directories : ∀ a ∈ x.root.trees, ∃ b ∈ y.root.trees, a.Narrows b
  modules : AreNarrowed x.modules y.modules

/-- **A graph that is a part of another one.** -/
structure ModuleGraph.Narrows (x y : ModuleGraph) : Prop where
  root : x.root.Narrows y.root
  modules : AreNarrowed x.modules y.modules

theorem Config.AddsVendors.isVendorDir_eq_false (h : fewer.AddsVendors more) {name : String}
    (hname : more.isVendorDir name = false) : fewer.isVendorDir name = false := by
  simp only [Config.isVendorDir, List.contains_eq_mem, decide_eq_false_iff_not] at hname ⊢
  exact fun hmem => hname (h.subset name hmem)

namespace FileSystem

/-- Records stay parts of one another when they are linked, among fewer modules that import less. -/
theorem linkRecord_narrows {known known' : List ModuleId} {e : Edge} {r s : ImportRecord}
    (hspecifiers : r.specifiers.Sublist s.specifiers) (hbindings : r.bindings.Sublist s.bindings)
    (hknown : ∀ id ∈ known', id ∈ known)
    (hback : e.target ∈ known' → e.importer ∈ fs.importsOf more e.target →
      e.importer ∈ fs.importsOf fewer e.target) :
    (fs.linkRecord more known' e r).Narrows (fs.linkRecord fewer known e s) where
  specifiers := hspecifiers
  bindings := hbindings
  resolved other hother := by
    obtain ⟨hmem, htarget⟩ := Option.ite_none_right_eq_some.mp hother
    exact Option.ite_none_right_eq_some.mpr ⟨hknown _ hmem, htarget⟩
  isMutual hmutual := by
    obtain ⟨hmem, himport⟩ := decide_eq_true_iff.mp hmutual
    exact decide_eq_true_iff.mpr ⟨hknown _ hmem, hback hmem himport⟩

/-! ## One module -/

section Module

variable (h : fewer.AddsVendors more)
include h

/-- **A vendor directory more makes some specifiers external** and leaves all others as they are. -/
theorem resolve_of_addsVendors : fs.resolve more.vendorDirs importer specifier =
    if isVendored importer (candidatePath importer specifier) more.vendorDirs then
      .ok (.external specifier)
    else fs.resolve fewer.vendorDirs importer specifier := by
  cases hmore : isVendored importer (candidatePath importer specifier) more.vendorDirs with
  | true => rw [resolve_eq, if_neg (by simp [hmore]), if_pos rfl]
  | false =>
    have hfewer : isVendored importer (candidatePath importer specifier) fewer.vendorDirs = false :=
      isVendored_eq_false_iff.mpr ((isVendored_eq_false_iff.mp hmore).of_subset h.subset)
    rw [if_neg Bool.false_ne_true, resolve_eq, fs.resolve_eq fewer.vendorDirs, hmore, hfewer]

/-- A file loses those statements whose specifiers become external. -/
theorem statementsTo_of_addsVendors (statements : List ImportStatement) :
    fs.statementsTo more.vendorDirs importer target statements
      = (fs.statementsTo fewer.vendorDirs importer target statements).filter fun s =>
          !isVendored importer (candidatePath importer s.source) more.vendorDirs := by
  rw [statementsTo, statementsTo, List.filter_filter]
  refine List.filter_congr fun s _ => ?_
  rw [resolve_of_addsVendors h]
  cases isVendored importer (candidatePath importer s.source) more.vendorDirs <;> simp [targetOf?]

/-- A module that can be analysed can be analysed with more vendor directories. -/
theorem exists_leaf_of_addsVendors (hleaf : (fs.analyze fewer id).leaf = .ok leaf) :
    ∃ leaf', (fs.analyze more id).leaf = .ok leaf' := by
  obtain ⟨dialect, contents, hread, hresolve⟩ := exists_leaf_iff.mp ⟨leaf, hleaf⟩
  refine exists_leaf_iff.mpr ⟨dialect, contents, h.maxFileSize_eq ▸ hread, fun s hs => ?_⟩
  rw [resolve_of_addsVendors h]
  split
  · exact ⟨_, rfl⟩
  · exact hresolve s hs

/-- **What is left of a leaf**: the same dialect and exports, and of some records a part of their
specifiers and bindings. -/
theorem leaf_of_addsVendors (hleaf : (fs.analyze fewer id).leaf = .ok leaf)
    (hleaf' : (fs.analyze more id).leaf = .ok leaf') :
    leaf'.dialect = leaf.dialect ∧ leaf'.exports = leaf.exports ∧
      ∀ target r, leaf'.importOf? target = some r → ∃ s, leaf.importOf? target = some s ∧
        r.specifiers.Sublist s.specifiers ∧ r.bindings.Sublist s.bindings := by
  obtain ⟨contents, hread, hexports, _, himport⟩ := importOf?_of_analyze hleaf
  obtain ⟨contents', hread', hexports', _, himport'⟩ := importOf?_of_analyze hleaf'
  rw [h.maxFileSize_eq, hread] at hread'
  obtain ⟨hdialect, rfl⟩ := Prod.mk.inj (Except.ok.inj hread')
  refine ⟨hdialect.symm, hexports'.trans hexports.symm, fun target r hr => ?_⟩
  rw [himport', statementsTo_of_addsVendors h] at hr
  rw [himport]
  exact ImportRecord.sublist_of_collect_filter
    (p := fun source => !isVendored id.path (candidatePath id.path source) more.vendorDirs) hr

theorem importsOf_of_addsVendors (hleaf : (fs.analyze fewer id).leaf = .ok leaf)
    (htarget : target ∈ fs.importsOf more id) : target ∈ fs.importsOf fewer id := by
  obtain ⟨leaf', hleaf', hmem⟩ := exists_leaf_of_mem_importsOf htarget
  obtain ⟨r, hr⟩ := OrderedMap.exists_get?_of_mem hmem
  obtain ⟨_, _, hrecords⟩ := leaf_of_addsVendors h hleaf hleaf'
  obtain ⟨s, hs, _⟩ := hrecords target r hr
  rw [importsOf_of_analyze hleaf]
  exact OrderedMap.mem_keys_of_get? hs

/-- **Of two builds the one with more vendor directories is a part of the other**, as soon as its
modules are some of the modules of that one. -/
theorem Assembled.areNarrowed (hbuild : fs.Assembled fewer modules)
    (hbuild' : fs.Assembled more modules') (hsub : ∀ id ∈ modules'.keys, id ∈ modules.keys) :
    AreNarrowed modules' modules := by
  intro id x hx
  have hid' : id ∈ modules'.keys := OrderedMap.mem_keys_of_get? hx
  obtain ⟨raw', hraw', rfl⟩ := hbuild'.analyzed hx
  obtain ⟨raw, hraw, hget⟩ := hbuild id (hsub id hid')
  obtain ⟨hdialect, hexports, hrecords⟩ := leaf_of_addsVendors h hraw hraw'
  have hids : raw'.id = raw.id := (id_of_analyze hraw').trans (id_of_analyze hraw).symm
  refine ⟨_, hget, hids, hdialect, hexports, fun target r hr => ?_⟩
  rw [importOf?_linkLeaf, hids] at hr
  obtain ⟨r', hr', rfl⟩ := Option.map_eq_some_iff.mp hr
  obtain ⟨s, hs, hspecifiers, hbindings⟩ := hrecords target r' hr'
  refine ⟨_, by rw [importOf?_linkLeaf, hs, Option.map_some],
    linkRecord_narrows hspecifiers hbindings hsub fun hmem himport => ?_⟩
  obtain ⟨back, hback, _⟩ := hbuild target (hsub target hmem)
  exact importsOf_of_addsVendors h hback himport

/-! ## Walks -/

theorem IsWalked.of_addsVendors (hq : fs.IsWalked more top q) : fs.IsWalked fewer top q := by
  obtain ⟨names, hdir, hvendor⟩ := hq
  exact ⟨names, hdir, fun name hname => h.isVendorDir_eq_false (hvendor name hname)⟩

theorem IsWalkedModule.of_addsVendors (hid : fs.IsWalkedModule more top id) :
    fs.IsWalkedModule fewer top id := by
  obtain ⟨dir, name, hdir, hmodule, rfl⟩ := hid
  exact ⟨dir, name, hdir.of_addsVendors h, hmodule, rfl⟩

/-- A listing loses some directories and no modules. -/
theorem listing_of_addsVendors (hl : fs.listing fewer dir = .ok l) :
    ∃ subdirs, fs.listing more dir = .ok ⟨subdirs, l.files⟩ ∧ ∀ sub ∈ subdirs, sub ∈ l.subdirs := by
  unfold listing at hl ⊢
  split at hl
  · nomatch hl
  · rename_i listed hlisted
    cases hes : fs.entriesOf dir (Listing.sortNames listed) with
    | error e => simp [hes, Except.map] at hl
    | ok es =>
      rw [hes] at hl
      obtain rfl := Except.ok.inj hl
      refine ⟨_, rfl, fun sub hsub => ?_⟩
      obtain ⟨e, he, hsub⟩ := List.mem_filterMap.mp hsub
      refine List.mem_filterMap.mpr ⟨e, he, ?_⟩
      simp only [Listing.subdir?, Bool.and_eq_true, Bool.not_eq_true', Option.ite_none_right_eq_some]
        at hsub ⊢
      exact ⟨⟨hsub.1.1, h.isVendorDir_eq_false hsub.1.2⟩, hsub.2⟩

omit h in
theorem exists_map_eq {α β : Type} {f : α → β} {p : α → Prop} {l : List β}
    (hl : ∀ b ∈ l, ∃ a, f a = b ∧ p a) : ∃ as : List α, as.map f = l ∧ ∀ a ∈ as, p a := by
  induction l with
  | nil => exact ⟨[], rfl, by simp⟩
  | cons b l ih =>
    obtain ⟨⟨a, rfl, ha⟩, hrest⟩ := List.forall_mem_cons.mp hl
    obtain ⟨as, rfl, has⟩ := ih hrest
    exact ⟨a :: as, rfl, List.forall_mem_cons.mpr ⟨ha, has⟩⟩

/-- A directory that has a chart has one with more vendor directories. -/
theorem Charts.exists_of_addsVendors (hcharts : fs.Charts fewer layout) :
    ∃ layout', layout'.path = layout.path ∧ fs.Charts more layout' := by
  induction hcharts with
  | @mk path subdirs files hlisting _ ih =>
    obtain ⟨paths, hlisting', hpaths⟩ := listing_of_addsVendors h hlisting
    obtain ⟨layouts, hlayouts, hcharts⟩ : ∃ layouts : List Layout,
        layouts.map Layout.path = paths ∧ ∀ sub ∈ layouts, fs.Charts more sub := by
      refine exists_map_eq fun p hp => ?_
      obtain ⟨sub, hsub, rfl⟩ := List.mem_map.mp (hpaths p hp)
      exact ih sub hsub
    exact ⟨.mk path layouts files, rfl, .mk (hlayouts ▸ hlisting') hcharts⟩

omit h in
/-- **What is imported by a module that is still walked, and was walked, is still walked.** -/
theorem isWalkedModule_of_import (hid : fs.IsWalkedModule more top id)
    (himport : target ∈ fs.importsOf more id) (htarget : fs.IsWalkedModule fewer top target) :
    fs.IsWalkedModule more top target :=
  htarget.of_vendorsWithin (hid.vendorsWithin.trans (vendorsWithin_of_import hid.clean_eq himport))

/-- **A walk succeeds with more vendor directories.** -/
theorem exists_walk_of_addsVendors (hwalk : fs.walk fewer top = .ok t) :
    ∃ t', fs.walk more top = .ok t' ∧ ∀ id ∈ t'.modules.keys, id ∈ t.modules.keys := by
  have hcheck := checkDir_of_walk hwalk
  obtain ⟨layout, _, rfl, hcharts, _⟩ := walk_eq_ok hwalk
  obtain ⟨layout', hpath, hcharts'⟩ := Charts.exists_of_addsVendors h hcharts
  rw [← hpath] at hwalk hcheck
  have hkeys : ∀ id ∈ layout'.allFiles, id ∈ t.modules.keys := fun id hid =>
    (mem_keys_walk hwalk).mpr ((hcharts'.mem_allFiles.mp hid).of_addsVendors h)
  have hread : ∀ id ∈ layout'.allFiles, ∃ leaf, (fs.analyze fewer id).leaf = .ok leaf :=
    fun id hid => (assembled_walk hwalk).exists_leaf (hkeys id hid)
  -- What the larger walk has read need not be read again: then it must be found among the modules
  -- that are left.
  have hfound : ∀ id ∈ layout'.allFiles, ∀ target ∈ fs.modulesFrom more id,
      target ∈ layout'.allFiles ∨ fs.isPresent target.path = true := by
    intro id hid target htarget
    obtain ⟨leaf, hleaf⟩ := hread id hid
    obtain ⟨himport, hfile⟩ := mem_modulesFrom.mp htarget
    have hwide := mem_modulesFrom.mpr ⟨importsOf_of_addsVendors h hleaf himport, hfile⟩
    refine (present_of_walk hwalk (hkeys id hid) hwide).imp_left fun hmem => ?_
    exact hcharts'.mem_allFiles.mpr (isWalkedModule_of_import (hcharts'.mem_allFiles.mp hid) himport
      ((mem_keys_walk hwalk).mp hmem))
  obtain ⟨t', hwalk', hkeys'⟩ := exists_walk hcharts' hcheck (fun id hid =>
    (hread id hid).elim fun _ hleaf => exists_leaf_of_addsVendors h hleaf) hfound
  exact ⟨t', hpath ▸ hwalk', hkeys' ▸ hkeys⟩

/-- **A tree with more vendor directories is a part of the other one.** -/
theorem exists_tree_of_addsVendors (hwalk : fs.walk fewer top = .ok t) (htop : top.clean = top) :
    ∃ t', fs.walk more top = .ok t' ∧ t'.Narrows t := by
  obtain ⟨t', hwalk', hkeys⟩ := exists_walk_of_addsVendors h hwalk
  have hmirror := mirrors_of_walk hwalk htop
  have hmirror' := mirrors_of_walk hwalk' htop
  refine ⟨t', hwalk', hmirror'.path_root.trans hmirror.path_root.symm, fun a ha => ?_,
    (assembled_walk hwalk).areNarrowed h (assembled_walk hwalk') hkeys⟩
  have hwalked : fs.IsWalked fewer top a.path :=
    ((hmirror'.mem_directories a.path).mp (List.mem_map_of_mem ha)).of_addsVendors h
  obtain ⟨b, hb, hpath⟩ := List.mem_map.mp ((hmirror.mem_directories a.path).mpr hwalked)
  obtain ⟨subdirs, hlisting, hsubdirs⟩ := listing_of_addsVendors h (listing_of_walk hwalk hb)
  obtain ⟨rfl, hfiles⟩ : a.directories.map Tree.path = subdirs ∧
      a.files.map Leaf.id = b.files.map Leaf.id := by
    simpa [hpath, listing_of_walk hwalk' ha] using hlisting
  exact ⟨b, hb, hpath.symm, hfiles, hsubdirs⟩

/-! ## Graphs -/

/-- What is reached with more vendor directories is reached with fewer, as long as nothing fails. -/
theorem Reaches.of_addsVendors
    (hok : ∀ id, fs.Reaches fewer root id → ∃ leaf, (fs.analyze fewer id).leaf = .ok leaf)
    (hid : fs.Reaches more root id) : fs.Reaches fewer root id := by
  induction hid with
  | root => exact .root
  | @step a b leaf _ hleaf hb hfile ih =>
    obtain ⟨raw, hraw⟩ := hok a ih
    rw [← importsOf_of_analyze hleaf] at hb
    exact ih.of_mem_modulesFrom
      (mem_modulesFrom.mpr ⟨importsOf_of_addsVendors h hraw hb, hfile⟩)

/-- **A graph with more vendor directories is a part of the other one.** -/
theorem exists_graph_of_addsVendors (hg : fs.graphFrom fewer entry = .ok g) :
    ∃ g', fs.graphFrom more entry = .ok g' ∧ g'.Narrows g := by
  have hok := exists_graphFrom_iff.mp ⟨g, hg⟩
  obtain ⟨g', hg'⟩ := exists_graphFrom_iff.mpr fun id hid => by
    obtain ⟨leaf, hleaf⟩ := hok id (hid.of_addsVendors h hok)
    exact exists_leaf_of_addsVendors h hleaf
  have hkeys : ∀ id ∈ g'.modules.keys, id ∈ g.modules.keys := fun id hid =>
    (mem_keys_graphFrom hg).mpr (((mem_keys_graphFrom hg').mp hid).of_addsVendors h hok)
  have hmodules := (assembled_graphFrom hg).areNarrowed h (assembled_graphFrom hg') hkeys
  obtain ⟨_, _, _, _, _, _, hroot⟩ := graphFrom_eq_ok hg
  obtain ⟨_, _, _, _, _, _, hroot'⟩ := graphFrom_eq_ok hg'
  obtain ⟨leaf, hleaf, hpart⟩ := hmodules _ _ hroot'
  obtain rfl : g.root = leaf := Option.some.inj (hroot.symm.trans hleaf)
  exact ⟨g', hg', hpart, hmodules⟩

end Module

/-! ## The same names -/

section SameVendors

variable (h : fewer.AddsVendors more) (h' : more.AddsVendors fewer)
include h h'

theorem resolve_of_sameVendors : fs.resolve more.vendorDirs = fs.resolve fewer.vendorDirs := by
  funext importer specifier
  have hvendored : isVendored importer (candidatePath importer specifier) more.vendorDirs = false ↔
      isVendored importer (candidatePath importer specifier) fewer.vendorDirs = false := by
    rw [isVendored_eq_false_iff, isVendored_eq_false_iff]
    exact ⟨fun hway => hway.of_subset h.subset, fun hway => hway.of_subset h'.subset⟩
  rw [resolve_eq, fs.resolve_eq fewer.vendorDirs]
  simp only [hvendored]

theorem analyze_of_sameVendors (id : ModuleId) : fs.analyze more id = fs.analyze fewer id := by
  rw [analyze, analyze, h.maxFileSize_eq, resolve_of_sameVendors h h']

theorem listing_of_sameVendors (dir : Path) : fs.listing more dir = fs.listing fewer dir := by
  have hvendor (name : String) : more.isVendorDir name = fewer.isVendorDir name :=
    Bool.eq_iff_iff.mpr (by
      simpa [Config.isVendorDir] using ⟨h'.subset name, h.subset name⟩)
  have hsubdir : Listing.subdir? more dir = Listing.subdir? fewer dir :=
    funext fun e => by rw [Listing.subdir?, Listing.subdir?, hvendor]
  have hentries : Listing.ofEntries more dir = Listing.ofEntries fewer dir :=
    funext fun es => by rw [Listing.ofEntries, Listing.ofEntries, hsubdir]
  rw [listing, listing, hentries]

/-- **Order and repetitions of vendor directories do not matter.** -/
theorem builds_of_sameVendors (p : Path) :
    fs.dependencyTree more p = fs.dependencyTree fewer p ∧
      fs.moduleGraph more p = fs.moduleGraph fewer p := by
  have hwalk : fs.walk more = fs.walk fewer := funext
    (walk_congr (listing_of_sameVendors h h') (analyze_of_sameVendors h h') rfl rfl)
  have hgraph : fs.graphFrom more = fs.graphFrom fewer :=
    funext (graphFrom_congr (analyze_of_sameVendors h h'))
  exact ⟨by rw [dependencyTree, dependencyTree, hwalk], by rw [moduleGraph, moduleGraph, hgraph]⟩

end SameVendors

/-! ## Builds -/

/-- **Vendor directories only narrow a build.**  A walk or a graph that succeeds does so with more
vendor directories, and the result is a part of the other one; and with the same vendor directories,
in whatever order and however often they are named, results and errors are the same. -/
theorem vendorDirs_narrow (fs : FileSystem) (fewer more : Config) (h : fewer.AddsVendors more) :
    (∀ dir t, fs.dependencyTree fewer dir = .ok t →
      ∃ t', fs.dependencyTree more dir = .ok t' ∧ t'.Narrows t) ∧
    (∀ entry g, fs.moduleGraph fewer entry = .ok g →
      ∃ g', fs.moduleGraph more entry = .ok g' ∧ g'.Narrows g) ∧
    (more.AddsVendors fewer → ∀ p, fs.dependencyTree more p = fs.dependencyTree fewer p ∧
      fs.moduleGraph more p = fs.moduleGraph fewer p) := by
  refine ⟨fun dir t ht => ?_, fun entry g hg => ?_, builds_of_sameVendors h⟩
  · obtain ⟨top, htop, hwalk⟩ := walk_of_dependencyTree ht
    obtain ⟨t', hwalk', hpart⟩ := exists_tree_of_addsVendors h hwalk (clean_of_absolute htop)
    exact ⟨t', (dependencyTree_of_absolute htop).trans hwalk', hpart⟩
  · obtain ⟨top, htop, hfrom⟩ := graphFrom_of_moduleGraph hg
    obtain ⟨g', hfrom', hpart⟩ := exists_graph_of_addsVendors h hfrom
    exact ⟨g', (moduleGraph_of_absolute htop).trans hfrom', hpart⟩

end FileSystem

namespace Memory

/-- No vendor directories at all. -/
def passNone : Config := { vendorDirs := [] }

/-- Without vendor directories the tree holds the modules of both projects. -/
theorem tree_nested_passNone :
    ∃ t, nested.toFileSystem.dependencyTree passNone ⟨"/lib"⟩ = .ok t ∧
      t.modules.keys = [foreignC, projectA, projectB] := by
  have hlower : nested.toFileSystem.listing passNone ⟨"/lib/lib"⟩ = .ok ⟨[], [foreignC]⟩ := by
    have hnames : nested.toFileSystem.names ⟨"/lib/lib"⟩ = .ok ["c.ts"] := by decide +kernel
    rw [FileSystem.listing_of_sorted hnames (by decide)]
    decide +kernel
  have hupper : nested.toFileSystem.listing passNone ⟨"/lib"⟩
      = .ok ⟨[⟨"/lib/lib"⟩], [projectA, projectB]⟩ := by
    rw [FileSystem.listing_of_sorted names_nested (by decide)]
    decide +kernel
  have hcharts : nested.toFileSystem.Charts passNone
      (.mk ⟨"/lib"⟩ [.mk ⟨"/lib/lib"⟩ [] [foreignC]] [projectA, projectB]) :=
    .mk hupper (by simpa using .mk hlower (by simp))
  have hself : nested.toFileSystem.IsSelfContained passNone [foreignC, projectA, projectB] := by
    decide +kernel
  exact hself.exists_walk hcharts (by simp [Layout.allFiles]) rfl

end Memory

namespace FileSystem

/-- A vendor directory is left out of a tree that had it, and the rest is a part of that tree. -/
theorem vendorDirs_narrow_nested : Memory.passNone.AddsVendors Memory.passLib ∧
    ∃ t t', Memory.nested.toFileSystem.dependencyTree Memory.passNone ⟨"/lib"⟩ = .ok t ∧
      Memory.nested.toFileSystem.dependencyTree Memory.passLib ⟨"/lib"⟩ = .ok t' ∧
      t.modules.keys = [Memory.foreignC, Memory.projectA, Memory.projectB] ∧
      t'.modules.keys = [Memory.projectA, Memory.projectB] ∧ t'.Narrows t := by
  have hadds : Memory.passNone.AddsVendors Memory.passLib := ⟨rfl, nofun⟩
  obtain ⟨t, ht, hkeys⟩ := Memory.tree_nested_passNone
  obtain ⟨t', ht', hkeys'⟩ := Memory.tree_nested
  obtain ⟨htrees, _⟩ :=
    vendorDirs_narrow Memory.nested.toFileSystem Memory.passNone Memory.passLib hadds
  obtain ⟨_, hbuild, hpart⟩ := htrees _ _ ht
  obtain rfl := Except.ok.inj (ht'.symm.trans hbuild)
  exact ⟨hadds, t, _, ht, ht', hkeys, hkeys', hpart⟩

end FileSystem

end ImportAtlas
