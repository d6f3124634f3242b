import ImportAtlas.Proofs.Entry
import ImportAtlas.Proofs.Vendoring

/-!
# Proofs/Containment — a build stays out of the vendor directories that it does not start in

One import leads into no vendor directory that its file is not in (`vendorsWithin_of_import`), and
that composes: so does a chain of imports of any length (`Reaches.vendorsWithin`).  A walk passes the
vendor directories by.  Hence neither the modules of a build nor what they import lie in a vendor
directory that the build does not start in.
-/

namespace ImportAtlas

variable {fs : FileSystem} {config : Config} {dir entry top : Path} {t : DependencyTree}
  {g : ModuleGraph} {modules : OrderedMap ModuleId Leaf} {id target root : ModuleId}
  {base : List Path.Component}

/-- **Modules that stay within a base**: neither they nor the files that they import lie in a vendor
directory that does not stand on the base as well. -/
def StaysWithin (vendorDirs : List String) (base : List Path.Component)
    (modules : OrderedMap ModuleId Leaf) : Prop :=
  ∀ id leaf, modules.get? id = some leaf → VendorsWithin vendorDirs base id.path.directories ∧
    ∀ target ∈ leaf.imports.keys, VendorsWithin vendorDirs base target.path.directories

namespace FileSystem

/-- An import leads into no vendor directory that the importing file is not in. -/
theorem vendorsWithin_of_import (hid : id.path.clean = id.path)
    (h : target ∈ fs.importsOf config id) :
    VendorsWithin config.vendorDirs id.path.directories target.path.directories := by
  obtain ⟨specifier, hresolve⟩ := exists_resolve_of_mem_importsOf h
  exact vendorsWithin_of_resolve hid hresolve

/-- **No chain of imports leads into a vendor directory** that it does not start in. -/
theorem Reaches.vendorsWithin (h : fs.Reaches config (.ofPath entry) id) :
    VendorsWithin config.vendorDirs entry.clean.directories id.path.directories := by
  induction h with
  | root => exact .refl _
  | step ha hleaf hb _ ih =>
    rw [← importsOf_of_analyze hleaf] at hb
    exact ih.trans (vendorsWithin_of_import (congrArg ModuleId.path ha.ofPath_eq) hb)

/-- A build stays within a base if its modules do: their imports lead no further. -/
theorem Assembled.staysWithin (h : fs.Assembled config modules)
    (hclean : ∀ id ∈ modules.keys, id.path.clean = id.path)
    (hkeys : ∀ id ∈ modules.keys, VendorsWithin config.vendorDirs base id.path.directories) :
    StaysWithin config.vendorDirs base modules := by
  intro id leaf hleaf
  have hid : id ∈ modules.keys := OrderedMap.mem_keys_of_get? hleaf
  refine ⟨hkeys id hid, fun target htarget => ?_⟩
  rw [h.keys_imports hleaf] at htarget
  exact (hkeys id hid).trans (vendorsWithin_of_import (hclean id hid) htarget)

theorem staysWithin_of_walk (h : fs.walk config top = .ok t) (htop : top.clean = top) :
    StaysWithin config.vendorDirs top.components t.modules := by
  have hroute : VendorsWithin config.vendorDirs top.components top.route.components :=
    (VendorsWithin.refl _).of_start (Path.prefix_components_route htop)
  refine (assembled_walk h).staysWithin (fun id hid => clean_of_mem_tree h hid) fun id hid => ?_
  exact hroute.trans ((mem_keys_walk h).mp hid).vendorsWithin

theorem staysWithin_of_graph (h : fs.graphFrom config top = .ok g) (htop : top.clean = top) :
    StaysWithin config.vendorDirs top.parent.components g.modules := by
  rw [Path.components_parent htop]
  refine (assembled_graphFrom h).staysWithin (fun id hid => ?_) fun id hid => ?_
  · exact congrArg ModuleId.path ((mem_keys_graphFrom h).mp hid).ofPath_eq
  · exact htop ▸ ((mem_keys_graphFrom h).mp hid).vendorsWithin

/-- **Builds stay out of vendor directories.**  Neither the modules of a walk nor the targets of their
imports lie in a vendor directory that the walk does not start in; and those of a graph lie in none
that its entry is not in, however long the chain of imports that leads to them. -/
theorem builds_stay_within (fs : FileSystem) (config : Config) :
    (∀ dir top t, fs.absolute dir = .ok top → fs.dependencyTree config dir = .ok t →
      StaysWithin config.vendorDirs top.components t.modules) ∧
    ∀ entry top g, fs.absolute entry = .ok top → fs.moduleGraph config entry = .ok g →
      StaysWithin config.vendorDirs top.parent.components g.modules := by
  refine ⟨fun dir top t htop h => ?_, fun entry top g htop h => ?_⟩
  · obtain ⟨top', htop', hwalk⟩ := walk_of_dependencyTree h
    obtain rfl : top = top' := Except.ok.inj (htop.symm.trans htop')
    exact staysWithin_of_walk hwalk (clean_of_absolute htop)
  · rw [moduleGraph_of_absolute htop] at h
    exact staysWithin_of_graph h (clean_of_absolute htop)

end FileSystem

/-! ## A project in a vendor directory, with one in it -/

namespace Memory

/-- A project in a vendor directory, with a vendor directory of its own. -/
def nested : Memory :=
  (((bare none).put ⟨"/lib/a.ts"⟩ { kind := .file "import './b'".toUTF8 }).put
    ⟨"/lib/b.ts"⟩ { kind := .file "import './lib/c'".toUTF8 }).put
    ⟨"/lib/lib/c.ts"⟩ { kind := .file "import '../a'".toUTF8 }

/-- The modules of the disk. -/
def projectA : ModuleId := ⟨⟨"/lib/a.ts"⟩⟩
@[inherit_doc projectA] def projectB : ModuleId := ⟨⟨"/lib/b.ts"⟩⟩
@[inherit_doc projectA] def foreignC : ModuleId := ⟨⟨"/lib/lib/c.ts"⟩⟩

/-- The vendor directories of the project. -/
def passLib : Config := { vendorDirs := ["lib"] }

theorem importsOf_projectA : nested.toFileSystem.importsOf passLib projectA = [projectB] := by
  decide +kernel

theorem isSelfContained_nested :
    nested.toFileSystem.IsSelfContained passLib [projectA, projectB] := by
  decide +kernel

theorem names_nested : nested.toFileSystem.names ⟨"/lib"⟩ = .ok ["a.ts", "b.ts", "lib"] := by
  decide +kernel

theorem tree_nested : ∃ t, nested.toFileSystem.dependencyTree passLib ⟨"/lib"⟩ = .ok t ∧
    t.modules.keys = [projectA, projectB] := by
  have hlisting : nested.toFileSystem.listing passLib ⟨"/lib"⟩
      = .ok ⟨[], [projectA, projectB]⟩ := by
    rw [FileSystem.listing_of_sorted names_nested (by decide)]
    decide +kernel
  exact isSelfContained_nested.exists_walk_of_listing hlisting rfl

theorem graph_nested : ∃ g, nested.toFileSystem.moduleGraph passLib ⟨"/lib/a.ts"⟩ = .ok g ∧
    projectB ∈ g.modules.keys := by
  have hentry : ModuleId.ofPath ⟨"/lib/a.ts"⟩ = projectA := by decide +kernel
  obtain ⟨g, hg⟩ : ∃ g, nested.toFileSystem.graphFrom passLib ⟨"/lib/a.ts"⟩ = .ok g :=
    isSelfContained_nested.exists_graph (by simp [hentry])
  refine ⟨g, hg, (FileSystem.mem_keys_graphFrom hg).mpr ?_⟩
  refine FileSystem.Reaches.root.of_mem_modulesFrom (FileSystem.mem_modulesFrom.mpr ⟨?_, ?_⟩)
  · rw [hentry, importsOf_projectA]
    exact List.mem_singleton_self _
  · decide +kernel

end Memory

namespace FileSystem

/-- A project in a vendor directory is built, and its own vendor directory is left out of the tree
and of the graph. -/
theorem builds_stay_within_nested :
    ∃ t g, Memory.nested.toFileSystem.dependencyTree Memory.passLib ⟨"/lib"⟩ = .ok t ∧
      Memory.nested.toFileSystem.moduleGraph Memory.passLib ⟨"/lib/a.ts"⟩ = .ok g ∧
      t.modules.keys = [Memory.projectA, Memory.projectB] ∧ Memory.projectB ∈ g.modules.keys ∧
      StaysWithin ["lib"] [.root, .name "lib"] t.modules ∧
      StaysWithin ["lib"] [.root, .name "lib"] g.modules ∧
      ¬ VendorsWithin ["lib"] [.root, .name "lib"] Memory.foreignC.path.directories := by
  obtain ⟨t, ht, hkeys⟩ := Memory.tree_nested
  obtain ⟨g, hg, hmem⟩ := Memory.graph_nested
  obtain ⟨hwalks, hgraphs⟩ := builds_stay_within Memory.nested.toFileSystem Memory.passLib
  have hbase : (Path.mk "/lib").components = [.root, .name "lib"] := by decide +kernel
  have hparent : (Path.mk "/lib/a.ts").parent.components = [.root, .name "lib"] := by
    decide +kernel
  have hforeign : Memory.foreignC.path.directories = [.root, .name "lib"] ++ [.name "lib"] := by
    decide +kernel
  refine ⟨t, g, ht, hg, hkeys, hmem, hbase ▸ hwalks _ _ t rfl ht, hparent ▸ hgraphs _ _ g rfl hg,
    fun h => ?_⟩
  rw [hforeign] at h
  have hlength := (h _ "lib" (List.prefix_refl _) (by simp)).length_le
  simp at hlength

end FileSystem

end ImportAtlas
