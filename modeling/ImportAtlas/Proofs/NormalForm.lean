import ImportAtlas.Proofs.Containment
import ImportAtlas.Proofs.Mirror

/-!
# Proofs/NormalForm — all paths of a result are absolute and clean

The paths of a result come from four places: the argument of the build, the names that a walk puts
behind a directory, the path that a specifier names, and that path with an index name or an extension
behind it.  What is cleaned stays clean (`Path.clean_clean`), and each of the four stays absolute.  So
a module has one identity (`ModulesNormal.clean_inj`), and a build is that of the normal form of its
argument, however this is spelled and wherever it is seen from.
-/

namespace ImportAtlas

/-! ## Normal paths -/

namespace Path

variable {p q : Path} {name extension : String}

/-- **A path in normal form**: it starts at the root, and cleaning leaves it as it is. -/
structure IsNormal (p : Path) : Prop where
  isAbsolute : p.isAbsolute = true
  clean_eq : p.clean = p

instance (p : Path) : Decidable p.IsNormal :=
  decidable_of_iff (p.isAbsolute = true ∧ p.clean = p)
    ⟨fun h => ⟨h.1, h.2⟩, fun h => ⟨h.isAbsolute, h.clean_eq⟩⟩

@[simp] theorem isAbsolute_clean (p : Path) : p.clean.isAbsolute = p.isAbsolute :=
  congrArg Route.absolute p.route_clean

theorem isNormal_clean (h : p.isAbsolute = true) : p.clean.IsNormal :=
  ⟨p.isAbsolute_clean.trans h, p.clean_clean⟩

/-- What stands behind an absolute path does not matter. -/
theorem isAbsolute_append (h : p.isAbsolute = true) (rest : String) :
    (Path.mk (p.text ++ rest)).isAbsolute = true := by
  cases hp : p.text.toList with
  | nil => simp [isAbsolute, hp] at h
  | cons c cs => simpa [isAbsolute, hp] using h

/-- Whatever is seen from an absolute path has an absolute path. -/
theorem isAbsolute_join (h : p.isAbsolute = true) : (p.join q).isAbsolute = true := by
  unfold join
  split
  · assumption
  · split
    · exact isAbsolute_append h _
    · rw [String.append_assoc]
      exact isAbsolute_append h _

theorem isAbsolute_appendExtension (h : p.isAbsolute = true) :
    (p.appendExtension extension).isAbsolute = true := by
  rw [appendExtension, String.append_assoc]
  exact isAbsolute_append h _

theorem IsNormal.child (h : p.IsNormal) (hname : isPlainName name = true) :
    (p.child name).IsNormal :=
  ⟨(isAbsolute_child hname).trans h.isAbsolute, clean_child h.clean_eq h.isAbsolute hname⟩

/-- The directory of a module file is absolute if the file is: only the root has no parent. -/
theorem IsNormal.isAbsolute_parent (h : p.IsNormal) (hmodule : p.isModuleFile = true) :
    p.parent.isAbsolute = true := by
  have hpath : Route.path ⟨p.isAbsolute, p.route.steps⟩ = p := h.clean_eq
  rcases List.eq_nil_or_concat' p.route.steps with hnil | ⟨steps, step, hsteps⟩
  · rw [hnil, h.isAbsolute] at hpath
    rw [← hpath] at hmodule
    nomatch hmodule
  · have hroute : p.route = ⟨true, steps ++ [step]⟩ := by
      rw [← hsteps, ← h.isAbsolute]
      rfl
    rw [parent_of_route h.clean_eq hroute, if_neg (by simp), Route.path, if_pos rfl]
    exact isAbsolute_append (p := ⟨"/"⟩) rfl _

end Path

namespace FileSystem

variable {fs : FileSystem} {config : Config} {vendorDirs : List String} {p q top importer : Path}
  {specifier : String} {id target : ModuleId}

/-! ## Where paths come from -/

/-- The absolute form of an argument is normal, if the working directory is absolute. -/
theorem isNormal_of_absolute (hcwd : ∀ cwd, fs.workingDir = .ok cwd → cwd.isAbsolute = true)
    (h : fs.absolute p = .ok top) : top.IsNormal := by
  unfold absolute at h
  split at h
  · rw [← Except.ok.inj h]
    exact Path.isNormal_clean ‹_›
  · cases hdir : fs.workingDir with
    | error e =>
      rw [hdir] at h
      nomatch h
    | ok cwd =>
      rw [hdir] at h
      rw [← Except.ok.inj h]
      exact Path.isNormal_clean (Path.isAbsolute_join (hcwd cwd hdir))

/-- The absolute form of an argument is what it is as seen from the working directory, cleaned. -/
theorem absolute_of_workingDir {cwd : Path} (h : fs.workingDir = .ok cwd) (p : Path) :
    fs.absolute p = .ok (cwd.join p).clean := by
  rw [absolute, h]
  split
  · rw [Path.join, if_pos ‹_›]
  · rfl

/-- A normal path is its own absolute form, wherever it is seen from. -/
theorem absolute_of_isNormal (h : top.IsNormal) : fs.absolute top = .ok top := by
  rw [absolute, if_pos h.isAbsolute, h.clean_eq]

theorem isAbsolute_of_mem_probes (h : p.isAbsolute = true) (hq : q ∈ fs.probes p) :
    q.isAbsolute = true := by
  rcases mem_probes_cases hq with ⟨_, _, rfl⟩ | ⟨_, _, rfl⟩ | rfl
  · exact Path.isAbsolute_join h
  · exact Path.isAbsolute_appendExtension h
  · exact h

/-- **A specifier leads to a normal path**, as seen from a module file with a normal path. -/
theorem isNormal_of_resolve (himporter : importer.IsNormal)
    (hmodule : importer.isModuleFile = true)
    (h : fs.resolve vendorDirs importer specifier = .ok (.file target)) :
    target.path.IsNormal := by
  have hcandidate : (candidatePath importer specifier).isAbsolute = true := by
    rw [candidatePath, Path.isAbsolute_clean]
    exact Path.isAbsolute_join (himporter.isAbsolute_parent hmodule)
  rcases file_of_resolve h with ⟨_, rfl⟩ | ⟨found, hfound, _, rfl⟩
  · exact Path.isNormal_clean hcandidate
  · exact Path.isNormal_clean (isAbsolute_of_mem_probes hcandidate hfound)

theorem isNormal_of_mem_importsOf (hid : id.path.IsNormal)
    (h : target ∈ fs.importsOf config id) : target.path.IsNormal := by
  obtain ⟨leaf, hleaf, _⟩ := exists_leaf_of_mem_importsOf h
  obtain ⟨specifier, hresolve⟩ := exists_resolve_of_mem_importsOf h
  exact isNormal_of_resolve hid (isModuleFile_of_analyze hleaf) hresolve

/-- What is reached from a normal path is normal. -/
theorem Reaches.isNormal (htop : top.IsNormal) (h : fs.Reaches config (.ofPath top) id) :
    id.path.IsNormal := by
  induction h with
  | root => exact Path.isNormal_clean htop.isAbsolute
  | step _ hleaf hb _ ih =>
    rw [← importsOf_of_analyze hleaf] at hb
    exact isNormal_of_mem_importsOf ih hb

/-- What lies below a normal path is normal. -/
theorem IsWalked.isNormal (htop : top.IsNormal) (h : fs.IsWalked config top q) : q.IsNormal := by
  obtain ⟨_, hdir, _⟩ := h
  obtain ⟨hclean, habsolute⟩ := hdir.clean_eq htop.clean_eq htop.isAbsolute
  exact ⟨habsolute, hclean⟩

theorem IsWalkedModule.isNormal (htop : top.IsNormal) (h : fs.IsWalkedModule config top id) :
    id.path.IsNormal := by
  obtain ⟨dir, name, hdir, hmodule, rfl⟩ := h
  have hdir : dir.IsNormal := IsWalked.isNormal htop hdir
  exact Path.isNormal_clean (hdir.child hmodule.isPlainName).isAbsolute

end FileSystem

/-! ## Normal results -/

/-- A leaf in which all paths are normal. -/
structure Leaf.IsNormal (leaf : Leaf) : Prop where
  id : leaf.id.path.IsNormal
  imports : ∀ target ∈ leaf.imports.keys, target.path.IsNormal
  resolved : ∀ target record other, leaf.importOf? target = some record →
    record.resolved = some other → other.path.IsNormal

/-- **Modules in normal form**: each is registered under its own identity, all paths are normal, and
no two keys are spellings of one path. -/
structure ModulesNormal (modules : OrderedMap ModuleId Leaf) : Prop where
  keys : ∀ id ∈ modules.keys, id.path.IsNormal
  leaves : ∀ id leaf, modules.get? id = some leaf → leaf.id = id ∧ leaf.IsNormal
  clean_inj : ∀ a ∈ modules.keys, ∀ b ∈ modules.keys, a.path.clean = b.path.clean → a = b

/-- A tree in normal form: its modules, its directories and its leaves are. -/
structure DependencyTree.IsNormal (t : DependencyTree) : Prop where
  modules : ModulesNormal t.modules
  directories : ∀ s ∈ t.root.trees, s.path.IsNormal
  leaves : ∀ leaf ∈ t.root.leaves, leaf.IsNormal

/-- A graph in normal form: its modules and its root are. -/
structure ModuleGraph.IsNormal (g : ModuleGraph) : Prop where
  modules : ModulesNormal g.modules
  root : g.root.IsNormal

namespace FileSystem

variable {fs : FileSystem} {config : Config} {top : Path} {modules : OrderedMap ModuleId Leaf}
  {t : DependencyTree} {g : ModuleGraph}

/-- **The modules of a finished build are in normal form** if their keys are: imports lead from normal
paths to normal paths. -/
theorem Assembled.modulesNormal (h : fs.Assembled config modules)
    (hkeys : ∀ id ∈ modules.keys, id.path.IsNormal) : ModulesNormal modules where
  keys := hkeys
  leaves id leaf hleaf := by
    have hid : id.path.IsNormal := hkeys id (OrderedMap.mem_keys_of_get? hleaf)
    refine ⟨h.id_eq hleaf, h.id_eq hleaf ▸ hid, fun target htarget => ?_,
      fun target record other hrecord hresolved => ?_⟩
    · rw [h.keys_imports hleaf] at htarget
      exact isNormal_of_mem_importsOf hid htarget
    · rw [h.resolved_eq hleaf hrecord] at hresolved
      split at hresolved
      · obtain rfl := Option.some.inj hresolved
        exact hkeys _ ‹_›
      · nomatch hresolved
  clean_inj a ha b hb hclean := by
    rw [(hkeys a ha).clean_eq, (hkeys b hb).clean_eq] at hclean
    exact congrArg ModuleId.mk hclean

theorem isNormal_of_walk (htop : top.IsNormal) (h : fs.walk config top = .ok t) : t.IsNormal := by
  have hmirrors := mirrors_of_walk h htop.clean_eq
  have hmodules : ModulesNormal t.modules := (assembled_walk h).modulesNormal fun id hid =>
    IsWalkedModule.isNormal htop ((mem_keys_walk h).mp hid)
  refine ⟨hmodules, fun s hs => ?_, fun leaf hleaf => ?_⟩
  · exact IsWalked.isNormal htop ((hmirrors.mem_directories _).mp (List.mem_map_of_mem hs))
  · rw [hmirrors.leaves_eq] at hleaf
    obtain ⟨⟨id, _⟩, hentry, rfl⟩ := List.mem_map.mp hleaf
    exact (hmodules.leaves id _ (OrderedMap.get?_eq_some_iff.mpr hentry)).2

theorem isNormal_of_graphFrom (htop : top.IsNormal) (h : fs.graphFrom config top = .ok g) :
    g.IsNormal := by
  obtain ⟨_, _, _, _, _, _, hroot⟩ := graphFrom_eq_ok h
  have hmodules : ModulesNormal g.modules := (assembled_graphFrom h).modulesNormal fun id hid =>
    Reaches.isNormal htop ((mem_keys_graphFrom h).mp hid)
  exact ⟨hmodules, (hmodules.leaves _ _ hroot).2⟩

/-- **Results are in normal form.**  Seen from an absolute working directory, whatever the argument of
a build: all paths of a tree and of a graph are absolute and clean, modules are registered under their
own identities, and no two of these are spellings of one path.  The build is that of the normal form
of its argument, which is the argument behind the working directory, cleaned; so arguments with the
same normal form have equal results, or equal errors. -/
theorem builds_are_normal (fs : FileSystem) (config : Config)
    (hcwd : ∀ cwd, fs.workingDir = .ok cwd → cwd.isAbsolute = true) :
    (∀ dir t, fs.dependencyTree config dir = .ok t → t.IsNormal) ∧
    (∀ entry g, fs.moduleGraph config entry = .ok g → g.IsNormal) ∧
    (∀ p top, fs.absolute p = .ok top → top.IsNormal ∧
      fs.dependencyTree config p = fs.dependencyTree config top ∧
      fs.moduleGraph config p = fs.moduleGraph config top) ∧
    (∀ cwd, fs.workingDir = .ok cwd → ∀ p, fs.absolute p = .ok (cwd.join p).clean) ∧
    ∀ p p', fs.absolute p = fs.absolute p' →
      fs.dependencyTree config p = fs.dependencyTree config p' ∧
      fs.moduleGraph config p = fs.moduleGraph config p' := by
  refine ⟨fun dir t h => ?_, fun entry g h => ?_, fun p top htop => ?_,
    fun cwd h p => absolute_of_workingDir h p, fun p p' h => ?_⟩
  · obtain ⟨top, htop, hwalk⟩ := walk_of_dependencyTree h
    exact isNormal_of_walk (isNormal_of_absolute hcwd htop) hwalk
  · obtain ⟨top, htop, hgraph⟩ := graphFrom_of_moduleGraph h
    exact isNormal_of_graphFrom (isNormal_of_absolute hcwd htop) hgraph
  · have hnormal := isNormal_of_absolute hcwd htop
    have habsolute : fs.absolute top = .ok top := absolute_of_isNormal hnormal
    exact ⟨hnormal,
      (dependencyTree_of_absolute htop).trans (dependencyTree_of_absolute habsolute).symm,
      (moduleGraph_of_absolute htop).trans (moduleGraph_of_absolute habsolute).symm⟩
  · rw [dependencyTree, dependencyTree, moduleGraph, moduleGraph, h]
    exact ⟨rfl, rfl⟩

end FileSystem

/-! ## Two spellings of one entry -/

namespace Memory

/-- The disk of two modules that import each other, seen from a directory beside them. -/
def twinsSeen : Memory := { twins with workingDir := some ⟨"/d"⟩ }

theorem isSelfContained_twinsSeen :
    twinsSeen.toFileSystem.IsSelfContained {} [twinA, twinB] := by
  decide +kernel

end Memory

namespace FileSystem

/-- The graph of one of them is the same from a relative spelling of its path and from an absolute
one. -/
theorem builds_are_normal_twinsSeen :
    (∀ cwd, Memory.twinsSeen.toFileSystem.workingDir = .ok cwd → cwd.isAbsolute = true) ∧
    ∃ g, Memory.twinsSeen.toFileSystem.moduleGraph {} ⟨"../a.ts"⟩ = .ok g ∧
      Memory.twinsSeen.toFileSystem.moduleGraph {} ⟨"/d/.././a.ts"⟩ = .ok g ∧ g.IsNormal := by
  have hcwd : ∀ cwd, Memory.twinsSeen.toFileSystem.workingDir = .ok cwd → cwd.isAbsolute = true := by
    intro cwd h
    rw [← Except.ok.inj h]
    decide
  have hrelative : Memory.twinsSeen.toFileSystem.absolute ⟨"../a.ts"⟩ = .ok Memory.twinA.path := by
    decide +kernel
  have habsolute :
      Memory.twinsSeen.toFileSystem.absolute ⟨"/d/.././a.ts"⟩ = .ok Memory.twinA.path := by
    decide +kernel
  have hentry : ModuleId.ofPath Memory.twinA.path = Memory.twinA := by decide +kernel
  obtain ⟨_, hgraphs, _, _, hequal⟩ := builds_are_normal Memory.twinsSeen.toFileSystem {} hcwd
  obtain ⟨g, hg⟩ : ∃ g, Memory.twinsSeen.toFileSystem.graphFrom {} Memory.twinA.path = .ok g :=
    Memory.isSelfContained_twinsSeen.exists_graph (by simp [hentry])
  rw [← moduleGraph_of_absolute hrelative] at hg
  obtain ⟨_, hsame⟩ := hequal _ _ (habsolute.trans hrelative.symm)
  exact ⟨hcwd, g, hg, hsame.trans hg, hgraphs _ g hg⟩

end FileSystem

end ImportAtlas
