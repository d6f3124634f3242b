import ImportAtlas.Proofs.Reachability
import ImportAtlas.Proofs.Walk

/-!
# Proofs/Linking — links of a finished build are exact and symmetric

A draft links its modules by means of its edges, in whatever order these came in.  A build that
succeeds leaves a draft whose edges are the imports of its modules (`Draft.Sound`), and so each
record is what the list of all modules makes of it: `Assembled.resolved_eq` and
`Assembled.isMutual_iff` say so without the edges.
-/

namespace ImportAtlas

variable {fs : FileSystem} {config : Config} {dir entry : Path} {t : DependencyTree}
  {g : ModuleGraph} {modules : OrderedMap ModuleId Leaf} {a b : ModuleId} {leaf : Leaf}
  {record : ImportRecord}

/-- **Modules that are linked among each other.**  A record is resolved exactly if its target is one
of the modules, and mutual exactly if the target is one of them and has a record for the importer in
turn; then that record is mutual as well. -/
structure AreLinked (modules : OrderedMap ModuleId Leaf) : Prop where
  resolved_eq : ∀ {a b leaf record}, modules.get? a = some leaf → leaf.importOf? b = some record →
    record.resolved = if b ∈ modules.keys then some b else none
  isMutual_iff : ∀ {a b leaf record}, modules.get? a = some leaf → leaf.importOf? b = some record →
    (record.isMutual = true ↔
      ∃ other back, modules.get? b = some other ∧ other.importOf? a = some back)
  isMutual_symm : ∀ {a b leaf record}, modules.get? a = some leaf → leaf.importOf? b = some record →
    record.isMutual = true → ∃ other back, modules.get? b = some other ∧
      other.importOf? a = some back ∧ back.isMutual = true

namespace FileSystem

/-! ## Finished builds -/

/-- **The modules of a build that succeeds**, whether it walks a directory or follows imports. -/
inductive Builds (fs : FileSystem) (config : Config) : OrderedMap ModuleId Leaf → Prop
  | tree {dir : Path} {t : DependencyTree} (h : fs.dependencyTree config dir = .ok t) :
      Builds fs config t.modules
  | graph {entry : Path} {g : ModuleGraph} (h : fs.moduleGraph config entry = .ok g) :
      Builds fs config g.modules

theorem assembled_walk (h : fs.walk config dir = .ok t) : fs.Assembled config t.modules := by
  obtain ⟨_, d, _, _, hsound, _, _, rfl⟩ := walk_eq_ok h
  exact assembled_link hsound

/-- The modules of a build are what their analyses say, linked among each other. -/
theorem Builds.assembled (h : fs.Builds config modules) : fs.Assembled config modules := by
  cases h with
  | tree h =>
    obtain ⟨_, _, hwalk⟩ := walk_of_dependencyTree h
    exact assembled_walk hwalk
  | graph h =>
    obtain ⟨_, _, hgraph⟩ := graphFrom_of_moduleGraph h
    exact assembled_graphFrom hgraph

/-! ## Links -/

/-- A module of a finished build has a record for a file exactly if it imports the file. -/
theorem Assembled.exists_record_iff (h : fs.Assembled config modules) :
    (∃ leaf record, modules.get? b = some leaf ∧ leaf.importOf? a = some record) ↔
      b ∈ modules.keys ∧ a ∈ fs.importsOf config b := by
  constructor
  · rintro ⟨leaf, record, hget, hrecord⟩
    refine ⟨OrderedMap.mem_keys_of_get? hget, ?_⟩
    rw [← h.keys_imports hget]
    exact OrderedMap.mem_keys_of_get? hrecord
  · rintro ⟨hmem, himport⟩
    obtain ⟨leaf, hget⟩ := OrderedMap.exists_get?_of_mem hmem
    rw [← h.keys_imports hget] at himport
    obtain ⟨record, hrecord⟩ := OrderedMap.exists_get?_of_mem himport
    exact ⟨leaf, record, hget, hrecord⟩

theorem Assembled.resolved_eq (h : fs.Assembled config modules)
    (hleaf : modules.get? a = some leaf) (hrecord : leaf.importOf? b = some record) :
    record.resolved = if b ∈ modules.keys then some b else none := by
  obtain ⟨raw, rfl⟩ := h.record_eq hleaf hrecord
  rfl

theorem Assembled.isMutual_iff (h : fs.Assembled config modules)
    (hleaf : modules.get? a = some leaf) (hrecord : leaf.importOf? b = some record) :
    record.isMutual = true ↔
      ∃ other back, modules.get? b = some other ∧ other.importOf? a = some back := by
  obtain ⟨raw, rfl⟩ := h.record_eq hleaf hrecord
  rw [h.exists_record_iff]
  exact decide_eq_true_iff

/-- **The links of every finished build are exact and symmetric.** -/
theorem Builds.areLinked (h : fs.Builds config modules) : AreLinked modules where
  resolved_eq hleaf hrecord := h.assembled.resolved_eq hleaf hrecord
  isMutual_iff hleaf hrecord := h.assembled.isMutual_iff hleaf hrecord
  isMutual_symm hleaf hrecord hmutual := by
    obtain ⟨other, back, hother, hback⟩ := (h.assembled.isMutual_iff hleaf hrecord).mp hmutual
    exact ⟨other, back, hother, hback,
      (h.assembled.isMutual_iff hother hback).mpr ⟨_, _, hleaf, hrecord⟩⟩

/-- Two modules that import each other are linked, and their records are mutual. -/
theorem areLinked_twins : ∃ t, Memory.twins.toFileSystem.dependencyTree {} ⟨"/"⟩ = .ok t ∧
    ∃ leaf record, t.modules.get? Memory.twinA = some leaf ∧
      leaf.importOf? Memory.twinB = some record ∧ record.resolved = some Memory.twinB ∧
      record.isMutual = true := by
  obtain ⟨t, ht, hkeys⟩ := Memory.tree_twins
  have hlinked : AreLinked t.modules := Builds.areLinked (.tree ht)
  have hrecord (a b : ModuleId) (ha : a ∈ t.modules.keys)
      (hb : b ∈ Memory.twins.toFileSystem.importsOf {} a) :=
    (Builds.tree ht).assembled.exists_record_iff.mpr ⟨ha, hb⟩
  have hA : Memory.twinA ∈ t.modules.keys := by simp [hkeys]
  have hB : Memory.twinB ∈ t.modules.keys := by simp [hkeys]
  obtain ⟨leaf, record, hleaf, himport⟩ :=
    hrecord Memory.twinA Memory.twinB hA (by simp [Memory.importsOf_twinA])
  have hback := hrecord Memory.twinB Memory.twinA hB (by simp [Memory.importsOf_twinB])
  refine ⟨t, ht, leaf, record, hleaf, himport, ?_, (hlinked.isMutual_iff hleaf himport).mpr hback⟩
  rw [hlinked.resolved_eq hleaf himport, if_pos hB]

end FileSystem

end ImportAtlas
