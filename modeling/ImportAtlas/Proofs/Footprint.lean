import ImportAtlas.Proofs.Faults
import ImportAtlas.Proofs.Termination
import Mathlib.Data.List.Find

/-!
# Proofs/Footprint — what a graph looks at

The analysis of a module looks at the file of the module, and for each of its specifiers at the path
that the specifier names and at the probes of that path (`footprint`).  Two disks that agree there
give the same analysis (`analyze_eq_of_agreeAt`).  An exploration on the one disk is then followed
step by step on the other (`Run.congr`), whether it fails or not: it asks for nothing but the
footprints of the modules that it has come to.
-/

namespace ImportAtlas

/-- A run on equal tasks is the same run: tasks that are never done do not matter. -/
theorem Run.congr {σ α ε : Type} {act act' : σ → α → Option (σ × Except ε (List α))}
    {todo calls : List α} {s : σ} {r : σ × Option ε} (h : Run act todo s calls r)
    (hpass : ∀ s a, act s a = none → act' s a = none)
    (hcalls : ∀ a ∈ calls, ∀ s, act' s a = act s a) : Run act' todo s calls r := by
  induction h with
  | done => exact .done
  | pass ha _ ih => exact .pass (hpass _ _ ha) (ih hcalls)
  | stop ha => exact .stop ((hcalls _ List.mem_cons_self _).trans ha)
  | call ha _ ih =>
    obtain ⟨hfirst, hlater⟩ := List.forall_mem_cons.mp hcalls
    exact .call ((hfirst _).trans ha) (ih hlater)

namespace FileSystem

variable {fs fs' : FileSystem} {config : Config} {p entry : Path} {id : ModuleId}
  {vendorDirs : List String} {importer : Path} {specifier : String}

/-! ## Where two disks agree -/

/-- **Two disks agree at a path**: they say the same about what is there, about its metadata and about
its bytes. -/
structure AgreeAt (fs fs' : FileSystem) (p : Path) : Prop where
  isPresent_eq : fs'.isPresent p = fs.isPresent p
  metadata_eq : fs'.metadata p = fs.metadata p
  contents_eq : fs'.contents p = fs.contents p

instance (fs fs' : FileSystem) (p : Path) : Decidable (fs.AgreeAt fs' p) :=
  -- Bytes can be compared in more than one way.
  let _ : DecidableEq ByteArray := ByteArray.instDecidableEq
  decidable_of_iff (fs'.isPresent p = fs.isPresent p ∧ fs'.metadata p = fs.metadata p ∧
      fs'.contents p = fs.contents p)
    ⟨fun h => ⟨h.1, h.2.1, h.2.2⟩, fun h => ⟨h.isPresent_eq, h.metadata_eq, h.contents_eq⟩⟩

/-- The paths that are looked at to find out where a specifier leads: none if it is external or names
a module file, else the path that it names and the probes of that path. -/
def asked (fs : FileSystem) (vendorDirs : List String) (importer : Path) (specifier : String) :
    List Path :=
  let candidate := candidatePath importer specifier
  if !isRelative specifier || isVendored importer candidate vendorDirs || candidate.isModuleFile
  then [] else candidate :: fs.probes candidate

/-- **The paths that the analysis of a module looks at**: its file, and what its specifiers ask for
once the file is read. -/
def footprint (fs : FileSystem) (config : Config) (id : ModuleId) : List Path :=
  id.path :: match fs.readStructure config.maxFileSize id.path with
    | .ok (_, contents) =>
      contents.imports.flatMap fun s => fs.asked config.vendorDirs id.path s.source
    | .error _ => []

theorem AgreeAt.isFile_eq (h : fs.AgreeAt fs' p) : fs'.isFile p = fs.isFile p := by
  rw [isFile, isFile, h.isPresent_eq, h.metadata_eq]

theorem AgreeAt.isDir_eq (h : fs.AgreeAt fs' p) : fs'.isDir p = fs.isDir p := by
  rw [isDir, isDir, h.isPresent_eq, h.metadata_eq]

theorem AgreeAt.probes_eq (h : fs.AgreeAt fs' p) : fs'.probes p = fs.probes p := by
  rw [probes, probes, h.isDir_eq]

theorem AgreeAt.readStructure_eq (h : fs.AgreeAt fs' p) (maxFileSize : Nat) :
    fs'.readStructure maxFileSize p = fs.readStructure maxFileSize p := by
  simp only [readStructure, readText, h.metadata_eq, h.contents_eq]

/-- **A specifier leads to the same file** on disks that agree at what it asks for. -/
theorem resolve_eq_of_agreeAt
    (h : ∀ p ∈ fs.asked vendorDirs importer specifier, fs.AgreeAt fs' p) :
    fs'.resolve vendorDirs importer specifier = fs.resolve vendorDirs importer specifier := by
  unfold asked at h
  simp only at h
  split at h
  · rename_i hunasked
    rw [resolve, resolve]
    simp only [Bool.or_eq_true] at hunasked
    rcases hunasked with hexternal | hmodule
    · rw [if_pos (by simpa using hexternal), if_pos (by simpa using hexternal)]
    · rw [hmodule]
      rfl
  · obtain ⟨hcandidate, hprobes⟩ := List.forall_mem_cons.mp h
    have hfind : (fs.probes (candidatePath importer specifier)).find? fs'.isFile
        = (fs.probes (candidatePath importer specifier)).find? fs.isFile :=
      List.find?_congr fun p hp => (hprobes p hp).isFile_eq
    rw [resolve, resolve, hcandidate.probes_eq, hfind]

/-- **A module says the same** on disks that agree on its footprint. -/
theorem analyze_eq_of_agreeAt (h : ∀ p ∈ fs.footprint config id, fs.AgreeAt fs' p) :
    fs'.analyze config id = fs.analyze config id := by
  obtain ⟨hfile, hasked⟩ := List.forall_mem_cons.mp h
  rw [analyze, analyze, hfile.readStructure_eq]
  cases hread : fs.readStructure config.maxFileSize id.path with
  | error e => rfl
  | ok r =>
    obtain ⟨dialect, contents⟩ := r
    rw [hread] at hasked
    have hresolve : ∀ s ∈ contents.imports, fs'.resolve config.vendorDirs id.path s.source
        = fs.resolve config.vendorDirs id.path s.source := fun s hs =>
      resolve_eq_of_agreeAt fun p hp => hasked p (List.mem_flatMap.mpr ⟨s, hs, hp⟩)
    simp only [Targets.of_congr hresolve]

/-! ## Graphs -/

/-- **The module is analysed on the way from an entry**, with success or as the one whose failure ends
the exploration. -/
def IsExplored (fs : FileSystem) (config : Config) (entry : Path) (id : ModuleId) : Prop :=
  ∃ calls r, Run (fs.visitTask config) [.ofPath entry] .empty calls r ∧ id ∈ calls

/-- What is analysed is reached from the entry. -/
theorem IsExplored.reaches (h : fs.IsExplored config entry id) :
    fs.Reaches config (.ofPath entry) id := by
  obtain ⟨calls, r, hrun, hid⟩ := h
  refine hrun.forall_mem (fun a ha => ?_) (fun hact ha b hb => ?_) id hid
  · rw [List.mem_singleton.mp ha]
    exact .root
  · obtain ⟨_, _, _, rfl⟩ := visitTask_eq_ok hact
    exact ha.of_mem_modulesFrom hb

/-- The modules of a graph are those that its run comes to, in order. -/
theorem run_of_graphFrom {g : ModuleGraph} (h : fs.graphFrom config entry = .ok g) :
    ∃ d, Run (fs.visitTask config) [.ofPath entry] .empty g.modules.keys (d, none) := by
  obtain ⟨d, hexplore, _, hvisited, _⟩ := graphFrom_eq_ok h
  obtain ⟨calls, hrun⟩ := fs.exists_run_explore config [.ofPath entry] .empty
    (by simpa using ofPath_path_ofPath entry)
  have hcalls := (visited_of_run hrun List.nodup_nil).1
  rw [hexplore, hvisited] at hcalls
  obtain rfl : g.modules.keys = calls := hcalls
  exact ⟨d, hexplore ▸ hrun⟩

/-- Whatever a graph is made of has been analysed, and nothing else has. -/
theorem isExplored_iff {g : ModuleGraph} (h : fs.graphFrom config entry = .ok g) :
    fs.IsExplored config entry id ↔ id ∈ g.modules.keys := by
  obtain ⟨d, hrun⟩ := run_of_graphFrom h
  constructor
  · rintro ⟨calls', r, hrun', hid⟩
    rwa [(hrun.unique hrun').1] at hid
  · exact fun hid => ⟨_, _, hrun, hid⟩

theorem visitTask_eq_of_analyze {config' : Config}
    (h : fs'.analyze config' id = fs.analyze config id) (d : Draft) :
    fs'.visitTask config' d id = fs.visitTask config d id := by
  simp only [visitTask, Draft.analyze, h]

/-- A module is passed over because of its mark, whatever the disk. -/
theorem visitTask_eq_none_iff {d : Draft} : fs.visitTask config d id = none ↔ id ∈ d.visited := by
  refine ⟨fun hpass => Decidable.byContradiction fun hnew => ?_, visitTask_of_visited⟩
  nomatch (visitTask_of_new hnew).symm.trans hpass

/-- **An exploration is followed step by step** on a disk that says the same of all that it
analyses. -/
theorem explore_eq_of_analyze
    (h : ∀ id, fs.IsExplored config entry id → fs'.analyze config id = fs.analyze config id) :
    fs'.explore config [.ofPath entry] .empty = fs.explore config [.ofPath entry] .empty := by
  have hroot : ∀ id ∈ [ModuleId.ofPath entry], ModuleId.ofPath id.path = id := by
    simpa using ofPath_path_ofPath entry
  obtain ⟨calls, hrun⟩ := fs.exists_run_explore config _ .empty hroot
  obtain ⟨calls', hrun'⟩ := fs'.exists_run_explore config _ .empty hroot
  have hfollow : Run (fs'.visitTask config) [.ofPath entry] .empty calls
      (fs.explore config [.ofPath entry] .empty) := by
    refine hrun.congr (fun d id hpass => ?_) fun id hid => ?_
    · exact visitTask_eq_none_iff.mpr (visitTask_eq_none_iff.mp hpass)
    · exact visitTask_eq_of_analyze (h id ⟨calls, _, hrun, hid⟩)
  exact (hfollow.unique hrun').2

/-- **A graph depends only on what it comes to.**  Say that two disks agree on the footprint of each
module that is analysed on the way from an entry on the first of them.  Then the graph from the entry
is the same on both, or the same error: whatever else is there, not there or broken has no effect. -/
theorem graph_depends_on_footprint (fs fs' : FileSystem) (config : Config) {entry : Path}
    (habsolute : entry.isAbsolute = true)
    (hagree : ∀ id, fs.IsExplored config entry.clean id →
      ∀ p ∈ fs.footprint config id, fs.AgreeAt fs' p) :
    fs'.moduleGraph config entry = fs.moduleGraph config entry := by
  have htop (fs : FileSystem) : fs.absolute entry = .ok entry.clean := by
    rw [absolute, if_pos habsolute]
  have hexplore : fs'.explore config [.ofPath entry.clean] .empty
      = fs.explore config [.ofPath entry.clean] .empty :=
    explore_eq_of_analyze fun id hid => analyze_eq_of_agreeAt (hagree id hid)
  rw [moduleGraph_of_absolute (htop fs), moduleGraph_of_absolute (htop fs'), graphFrom, graphFrom,
    hexplore]

end FileSystem

namespace Memory

/-- The disk of `tangled` with a module that cannot be parsed, in a directory of its own. -/
def tangledBeside : Memory := tangled.put ⟨"/d/a.ts"⟩ { kind := .file "import \x7b".toUTF8 }

theorem agreeAt_tangledBeside : ∀ id ∈ [tangledA, tangledB, tangledC, tangledGone],
    ∀ p ∈ tangled.toFileSystem.footprint {} id,
      tangled.toFileSystem.AgreeAt tangledBeside.toFileSystem p := by
  decide +kernel

end Memory

namespace FileSystem

/-- The exploration of `tangled` fails, and so it does with the module beside it. -/
theorem graph_depends_on_footprint_tangled :
    (Path.mk "/a.ts").isAbsolute = true ∧
    (∀ id, Memory.tangled.toFileSystem.IsExplored {} (Path.mk "/a.ts").clean id →
      ∀ p ∈ Memory.tangled.toFileSystem.footprint {} id,
        Memory.tangled.toFileSystem.AgreeAt Memory.tangledBeside.toFileSystem p) ∧
    Memory.tangledBeside.toFileSystem.moduleGraph {} ⟨"/a.ts"⟩
      = Memory.tangled.toFileSystem.moduleGraph {} ⟨"/a.ts"⟩ := by
  have habsolute : (Path.mk "/a.ts").isAbsolute = true := by decide
  have hentry : ModuleId.ofPath (Path.mk "/a.ts").clean = Memory.tangledA := by decide +kernel
  have hagree : ∀ id, Memory.tangled.toFileSystem.IsExplored {} (Path.mk "/a.ts").clean id →
      ∀ p ∈ Memory.tangled.toFileSystem.footprint {} id,
        Memory.tangled.toFileSystem.AgreeAt Memory.tangledBeside.toFileSystem p := by
    intro id hid
    have hreached := hid.reaches
    rw [hentry] at hreached
    exact Memory.agreeAt_tangledBeside id ((mem_preorder_iff Memory.depthFirst_tangled).mpr hreached)
  exact ⟨habsolute, hagree, graph_depends_on_footprint _ _ {} habsolute hagree⟩

end FileSystem

end ImportAtlas
