import ImportAtlas.Proofs.Agreement

/-!
# Proofs/Entry — what a graph says about a module does not depend on its entry

Whatever is reached from a module of a graph is reached from the entry of the graph
(`Reaches.trans`).  So there is a graph from each of its modules, with none but its modules
(`exists_graph_of_mem`).  And two graphs that share a module share all module files that it imports:
both link it alike (`get?_eq_of_graphs`).
-/

namespace ImportAtlas

variable {fs : FileSystem} {config : Config} {entry entry' : Path} {g g' : ModuleGraph}
  {a b c id : ModuleId}

namespace FileSystem

/-! ## Reaching on from what is reached -/

theorem Reaches.trans (hab : fs.Reaches config a b) (hbc : fs.Reaches config b c) :
    fs.Reaches config a c := by
  induction hbc with
  | root => exact hab
  | step _ hleaf hb hfile ih => exact ih.step hleaf hb hfile

/-- What is reached from a path is spelled as its own clean path. -/
theorem Reaches.ofPath_eq (h : fs.Reaches config (.ofPath entry) id) :
    ModuleId.ofPath id.path = id := by
  cases h with
  | root => exact ofPath_path_ofPath entry
  | step _ hleaf hb _ => exact ofPath_of_mem_importsOf ((importsOf_of_analyze hleaf).symm ▸ hb)

/-- **From each module of a graph there is a graph**, and it has none but modules of that one. -/
theorem exists_graph_of_mem (hg : fs.graphFrom config entry = .ok g) (hid : id ∈ g.modules.keys) :
    ∃ g', fs.graphFrom config id.path = .ok g' ∧
      ∀ other ∈ g'.modules.keys, other ∈ g.modules.keys := by
  have hreached : fs.Reaches config (.ofPath entry) id := (mem_keys_graphFrom hg).mp hid
  have hbelow : ∀ other, fs.Reaches config (.ofPath id.path) other → other ∈ g.modules.keys := by
    intro other hother
    rw [hreached.ofPath_eq] at hother
    exact (mem_keys_graphFrom hg).mpr (hreached.trans hother)
  obtain ⟨g', hg'⟩ := exists_graphFrom_iff.mpr fun other hother => by
    obtain ⟨leaf, hleaf, _⟩ := assembled_graphFrom hg other (hbelow other hother)
    exact ⟨leaf, hleaf⟩
  exact ⟨g', hg', fun other hother => hbelow other ((mem_keys_graphFrom hg').mp hother)⟩

/-! ## Two graphs -/

/-- A module of a graph that is imported by a module of another graph is in that one as well. -/
theorem mem_keys_of_graphs (hg : fs.graphFrom config entry = .ok g)
    (hg' : fs.graphFrom config entry' = .ok g') (hid' : id ∈ g'.modules.keys)
    (himport : b ∈ fs.importsOf config id) (hb : b ∈ g.modules.keys) : b ∈ g'.modules.keys :=
  mem_keys_of_import hg' hid' himport ((assembled_graphFrom hg).isModuleFile hb)

/-- **Two graphs have equal leaves of the modules that they share.** -/
theorem get?_eq_of_graphs (hg : fs.graphFrom config entry = .ok g)
    (hg' : fs.graphFrom config entry' = .ok g') (hid : id ∈ g.modules.keys)
    (hid' : id ∈ g'.modules.keys) : g.modules.get? id = g'.modules.get? id := by
  refine (assembled_graphFrom hg).get?_eq (assembled_graphFrom hg') hid hid' fun b hb => ?_
  exact ⟨mem_keys_of_graphs hg hg' hid' hb, mem_keys_of_graphs hg' hg hid hb⟩

/-- **Leaves do not depend on the entry.**  If there is a graph from an entry, there is one from each
of its modules, whatever path of the module is given, with none but the modules of the first; and any
two graphs on one disk have equal leaves of all modules that are in both. -/
theorem graphs_independent_of_entry (fs : FileSystem) (config : Config) :
    (∀ entry g, fs.graphFrom config entry = .ok g → ∀ id ∈ g.modules.keys,
      ∃ g', fs.graphFrom config id.path = .ok g' ∧
        (∀ given, fs.absolute given = .ok id.path → fs.moduleGraph config given = .ok g') ∧
        ∀ other ∈ g'.modules.keys, other ∈ g.modules.keys) ∧
    ∀ entry entry' g g', fs.graphFrom config entry = .ok g → fs.graphFrom config entry' = .ok g' →
      ∀ id ∈ g.modules.keys, id ∈ g'.modules.keys → g.modules.get? id = g'.modules.get? id := by
  refine ⟨fun entry g hg id hid => ?_, fun _ _ g g' hg hg' id hid hid' => ?_⟩
  · obtain ⟨g', hg', hsub⟩ := exists_graph_of_mem hg hid
    exact ⟨g', hg', fun given hgiven => (moduleGraph_of_absolute hgiven).trans hg', hsub⟩
  · exact get?_eq_of_graphs hg hg' hid hid'

/-- From each of two modules that import each other there is a graph of both, and it has the same
leaf of the second. -/
theorem graphs_independent_of_entry_twins :
    ∃ g g', Memory.twins.toFileSystem.graphFrom {} ⟨"/a.ts"⟩ = .ok g ∧
      Memory.twins.toFileSystem.moduleGraph {} ⟨"/b.ts"⟩ = .ok g' ∧
      (∀ other ∈ g'.modules.keys, other ∈ g.modules.keys) ∧
      Memory.twinB ∈ g.modules.keys ∧ Memory.twinB ∈ g'.modules.keys ∧
      g.modules.get? Memory.twinB = g'.modules.get? Memory.twinB := by
  have hentry : ModuleId.ofPath ⟨"/a.ts"⟩ = Memory.twinA := by decide +kernel
  obtain ⟨g, hg⟩ : ∃ g, Memory.twins.toFileSystem.graphFrom {} ⟨"/a.ts"⟩ = .ok g :=
    exists_graphFrom_iff.mpr fun id hid =>
      Memory.exists_leaf_twins id (Memory.reaches_twins.mp (hentry ▸ hid))
  have hmem : Memory.twinB ∈ g.modules.keys :=
    (mem_keys_graphFrom hg).mpr (hentry.symm ▸ Memory.reaches_twins.mpr (Or.inr rfl))
  obtain ⟨hgraph, hequal⟩ := graphs_independent_of_entry Memory.twins.toFileSystem {}
  obtain ⟨g', hg', hmodule, hsub⟩ := hgraph ⟨"/a.ts"⟩ g hg Memory.twinB hmem
  have hroot : ModuleId.ofPath Memory.twinB.path = Memory.twinB := by decide +kernel
  have hmem' : Memory.twinB ∈ g'.modules.keys := (mem_keys_graphFrom hg').mpr (hroot.symm ▸ .root)
  exact ⟨g, g', hg, hmodule ⟨"/b.ts"⟩ rfl, hsub, hmem, hmem',
    hequal _ _ g g' hg hg' Memory.twinB hmem hmem'⟩

end FileSystem

end ImportAtlas
