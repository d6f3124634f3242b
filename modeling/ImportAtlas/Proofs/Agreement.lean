import ImportAtlas.Proofs.Linking

/-!
# Proofs/Agreement — a tree and a graph say the same about a module

Both modes analyse a module alike and link its records by the list of all their modules.  So two
builds can differ at a module only in the records of files that just one of them has
(`Assembled.agree`); and a graph from a module of a tree has nothing but modules of the tree if all
that is come to by the links of the tree is linked (`reaches_iff_linkedFrom`).
-/

namespace ImportAtlas

variable {fs : FileSystem} {config : Config} {dir entry : Path} {t : DependencyTree}
  {g : ModuleGraph} {modules modules' : OrderedMap ModuleId Leaf} {id root : ModuleId}
  {leaf leaf' : Leaf}

/-- **The modules that are come to from one of them by links**, the module itself being one. -/
inductive LinkedFrom (modules : OrderedMap ModuleId Leaf) (root : ModuleId) : ModuleId → Prop
  | root : LinkedFrom modules root root
  | step {a b : ModuleId} {leaf : Leaf} {record : ImportRecord} (ha : LinkedFrom modules root a)
      (hleaf : modules.get? a = some leaf) (hrecord : leaf.importOf? b = some record)
      (hlink : record.resolved = some b) : LinkedFrom modules root b

/-- All module files that a module has a record for are linked. -/
def IsFullyLinked (modules : OrderedMap ModuleId Leaf) (a : ModuleId) : Prop :=
  ∀ leaf b record, modules.get? a = some leaf → leaf.importOf? b = some record →
    b.path.isModuleFile = true → record.resolved = some b

/-- **Leaves that say the same about a module.**  They agree in all but the links, and in the links
to the given modules as well. -/
structure Leaf.AgreeOn (known : List ModuleId) (x y : Leaf) : Prop where
  dialect_eq : x.dialect = y.dialect
  exports_eq : x.exports = y.exports
  targets_eq : x.imports.keys = y.imports.keys
  statements_eq : ∀ {b r s}, x.importOf? b = some r → y.importOf? b = some s →
    r.specifiers = s.specifiers ∧ r.bindings = s.bindings
  record_eq : ∀ b ∈ known, x.importOf? b = y.importOf? b

namespace FileSystem

/-! ## Leaves of two builds -/

theorem linkRecord_congr {known known' : List ModuleId} {e : Edge}
    (h : e.target ∈ known ↔ e.target ∈ known') (record : ImportRecord) :
    fs.linkRecord config known e record = fs.linkRecord config known' e record := by
  simp only [linkRecord, h]

theorem linkLeaf_congr {known known' : List ModuleId}
    (h : ∀ b ∈ leaf.imports.keys, b ∈ known ↔ b ∈ known') :
    fs.linkLeaf config known leaf = fs.linkLeaf config known' leaf := by
  have himports : leaf.imports.mapValues (fun b => fs.linkRecord config known ⟨leaf.id, b⟩)
      = leaf.imports.mapValues fun b => fs.linkRecord config known' ⟨leaf.id, b⟩ :=
    OrderedMap.mapValues_congr fun b hb => linkRecord_congr (h b hb)
  rw [linkLeaf, linkLeaf, himports]

/-- The modules of a finished build are module files. -/
theorem Assembled.isModuleFile (h : fs.Assembled config modules) (hid : id ∈ modules.keys) :
    id.path.isModuleFile = true := by
  obtain ⟨leaf, hleaf, _⟩ := h id hid
  exact isModuleFile_of_analyze hleaf

/-- **Two builds agree on a module that both have**, up to the links to files that one of them does
not have. -/
theorem Assembled.agree (h : fs.Assembled config modules) (h' : fs.Assembled config modules')
    (hleaf : modules.get? id = some leaf) (hleaf' : modules'.get? id = some leaf')
    {known : List ModuleId}
    (hknown : ∀ b ∈ fs.importsOf config id, b ∈ known → (b ∈ modules.keys ↔ b ∈ modules'.keys)) :
    leaf.AgreeOn known leaf' := by
  obtain ⟨raw, hraw, rfl⟩ := h.analyzed hleaf
  obtain ⟨raw', hraw', rfl⟩ := h'.analyzed hleaf'
  obtain rfl : raw = raw' := Except.ok.inj (hraw.symm.trans hraw')
  refine ⟨rfl, rfl, by simp, fun {b r s} hr hs => ?_, fun b hb => ?_⟩
  · rw [importOf?_linkLeaf] at hr hs
    obtain ⟨record, hrecord, rfl⟩ := Option.map_eq_some_iff.mp hr
    rw [hrecord] at hs
    obtain rfl := Option.some.inj hs
    exact ⟨rfl, rfl⟩
  · rw [importOf?_linkLeaf, importOf?_linkLeaf]
    cases hrecord : raw.importOf? b with
    | none => rfl
    | some record =>
      have himport : b ∈ fs.importsOf config id := by
        rw [importsOf_of_analyze hraw]
        exact OrderedMap.mem_keys_of_get? hrecord
      rw [Option.map_some, Option.map_some, linkRecord_congr (hknown b himport hb)]

/-- **Two builds have the same leaf of a module** if they have the same ones among the files that it
imports. -/
theorem Assembled.get?_eq (h : fs.Assembled config modules) (h' : fs.Assembled config modules')
    (hid : id ∈ modules.keys) (hid' : id ∈ modules'.keys)
    (hknown : ∀ b ∈ fs.importsOf config id, b ∈ modules.keys ↔ b ∈ modules'.keys) :
    modules.get? id = modules'.get? id := by
  obtain ⟨raw, hraw, hget⟩ := h id hid
  obtain ⟨raw', hraw', hget'⟩ := h' id hid'
  obtain rfl : raw = raw' := Except.ok.inj (hraw.symm.trans hraw')
  rw [importsOf_of_analyze hraw] at hknown
  rw [hget, hget', linkLeaf_congr hknown]

/-! ## What a graph comes to, and what a tree links -/

/-- A graph has every module file that one of its modules imports. -/
theorem mem_keys_of_import (hg : fs.graphFrom config entry = .ok g) {a b : ModuleId}
    (ha : a ∈ g.modules.keys) (hb : b ∈ fs.importsOf config a)
    (hfile : b.path.isModuleFile = true) : b ∈ g.modules.keys :=
  (mem_keys_graphFrom hg).mpr
    (((mem_keys_graphFrom hg).mp ha).of_mem_modulesFrom (mem_modulesFrom.mpr ⟨hb, hfile⟩))

theorem Assembled.mem_keys_of_linkedFrom (h : fs.Assembled config modules)
    (hroot : root ∈ modules.keys) (hid : LinkedFrom modules root id) : id ∈ modules.keys := by
  cases hid with
  | root => exact hroot
  | step _ hleaf hrecord hlink =>
    rw [h.resolved_eq hleaf hrecord] at hlink
    refine Decidable.byContradiction fun hnot => ?_
    nomatch (if_neg hnot).symm.trans hlink

/-- **What is come to by links is what is reached**, as long as nothing is reached that is not
linked. -/
theorem Assembled.reaches_iff_linkedFrom (h : fs.Assembled config modules)
    (hroot : root ∈ modules.keys)
    (hlinked : ∀ a, LinkedFrom modules root a → IsFullyLinked modules a) :
    fs.Reaches config root id ↔ LinkedFrom modules root id := by
  constructor
  · intro hid
    induction hid with
    | root => exact .root
    | @step a b raw _ hraw hb hfile ih =>
      have ha : a ∈ modules.keys := h.mem_keys_of_linkedFrom hroot ih
      have himport : b ∈ fs.importsOf config a := (importsOf_of_analyze hraw).symm ▸ hb
      obtain ⟨leaf, record, hleaf, hrecord⟩ := h.exists_record_iff.mpr ⟨ha, himport⟩
      exact ih.step hleaf hrecord (hlinked a ih leaf b record hleaf hrecord hfile)
  · intro hid
    induction hid with
    | root => exact .root
    | @step a b leaf record ha hleaf hrecord hlink ih =>
      obtain ⟨_, himport⟩ := h.exists_record_iff.mp ⟨leaf, record, hleaf, hrecord⟩
      have hb : b ∈ modules.keys :=
        h.mem_keys_of_linkedFrom hroot (.step ha hleaf hrecord hlink)
      exact ih.of_mem_modulesFrom (mem_modulesFrom.mpr ⟨himport, h.isModuleFile hb⟩)

/-- **A tree in which everything is linked that is come to from one of its modules has the graph of
that module in it.** -/
theorem Assembled.exists_graph (h : fs.Assembled config modules)
    (hclean : root.path.clean = root.path) (hroot : root ∈ modules.keys)
    (hlinked : ∀ a, LinkedFrom modules root a → IsFullyLinked modules a) :
    ∃ g, fs.graphFrom config root.path = .ok g ∧
      (∀ id, id ∈ g.modules.keys ↔ LinkedFrom modules root id) ∧
      ∀ id ∈ g.modules.keys, g.modules.get? id = modules.get? id := by
  have hid : ModuleId.ofPath root.path = root := congrArg ModuleId.mk hclean
  have hreaches (id : ModuleId) : fs.Reaches config root id ↔ LinkedFrom modules root id :=
    h.reaches_iff_linkedFrom hroot hlinked
  obtain ⟨g, hg⟩ := exists_graphFrom_iff.mpr fun id hreached => by
    rw [hid, hreaches] at hreached
    exact h.exists_leaf (h.mem_keys_of_linkedFrom hroot hreached)
  have hkeys (id : ModuleId) : id ∈ g.modules.keys ↔ LinkedFrom modules root id := by
    rw [mem_keys_graphFrom hg, hid, hreaches]
  refine ⟨g, hg, hkeys, fun id hmem => ?_⟩
  have hmodule := h.mem_keys_of_linkedFrom hroot ((hkeys id).mp hmem)
  refine (assembled_graphFrom hg).get?_eq h hmem hmodule fun b hb => ⟨fun hb' => ?_, fun hb' => ?_⟩
  · exact h.mem_keys_of_linkedFrom hroot ((hkeys b).mp hb')
  · exact mem_keys_of_import hg hmem hb (h.isModuleFile hb')

/-- A module of a tree is spelled as its own clean path. -/
theorem clean_of_mem_tree (h : fs.walk config dir = .ok t) (hid : id ∈ t.modules.keys) :
    id.path.clean = id.path := by
  obtain ⟨_, _, _, _, rfl⟩ := (mem_keys_walk h).mp hid
  exact Path.clean_clean _

/-- **The two modes agree.**  If a walk succeeds and a module of the tree comes to nothing but
linked module files, then there is a graph from that module, whatever path of it is given; it has
the modules of the tree that are come to, with the same leaves.  And a tree and a graph of one disk
agree on every module that both have, links to modules of the tree included. -/
theorem modes_agree (fs : FileSystem) (config : Config) {dir : Path} {t : DependencyTree}
    (ht : fs.dependencyTree config dir = .ok t) :
    (∀ root ∈ t.modules.keys,
      (∀ a, LinkedFrom t.modules root a → IsFullyLinked t.modules a) →
      ∃ g, fs.graphFrom config root.path = .ok g ∧
        (∀ entry, fs.absolute entry = .ok root.path → fs.moduleGraph config entry = .ok g) ∧
        (∀ id, id ∈ g.modules.keys ↔ LinkedFrom t.modules root id) ∧
        ∀ id ∈ g.modules.keys, g.modules.get? id = t.modules.get? id) ∧
    ∀ entry g, fs.moduleGraph config entry = .ok g → ∀ id x y, t.modules.get? id = some x →
      g.modules.get? id = some y → x.AgreeOn t.modules.keys y := by
  have htree : fs.Assembled config t.modules := (Builds.tree ht).assembled
  refine ⟨fun root hroot hlinked => ?_, fun entry g hg id x y hx hy => ?_⟩
  · obtain ⟨_, _, hwalk⟩ := walk_of_dependencyTree ht
    obtain ⟨g, hg, hgraph⟩ := htree.exists_graph (clean_of_mem_tree hwalk hroot) hroot hlinked
    exact ⟨g, hg, fun entry hentry => (moduleGraph_of_absolute hentry).trans hg, hgraph⟩
  · obtain ⟨top, _, hfrom⟩ := graphFrom_of_moduleGraph hg
    refine htree.agree (assembled_graphFrom hfrom) hx hy fun b hb hknown =>
      iff_of_true hknown ?_
    exact mem_keys_of_import hfrom (OrderedMap.mem_keys_of_get? hy) hb (htree.isModuleFile hknown)

/-- The tree of two modules that import each other has the graph of each of them in it. -/
theorem modes_agree_twins : ∃ t, Memory.twins.toFileSystem.dependencyTree {} ⟨"/"⟩ = .ok t ∧
    ∃ g, Memory.twins.toFileSystem.moduleGraph {} ⟨"/a.ts"⟩ = .ok g ∧
      Memory.twinB ∈ g.modules.keys ∧
      ∀ id ∈ g.modules.keys, g.modules.get? id = t.modules.get? id := by
  obtain ⟨t, ht, hkeys⟩ := Memory.tree_twins
  have htree := (Builds.tree ht).assembled
  have hlinked (a : ModuleId) : IsFullyLinked t.modules a := fun leaf b record hleaf hrecord _ => by
    obtain ⟨ha, hb⟩ := htree.exists_record_iff.mp ⟨leaf, record, hleaf, hrecord⟩
    rw [htree.resolved_eq hleaf hrecord, if_pos]
    rw [hkeys] at ha ⊢
    exact Memory.isSelfContained_twins.closed a ha b hb
  obtain ⟨hgraph, _⟩ := modes_agree Memory.twins.toFileSystem {} ht
  obtain ⟨g, _, hentry, hreached, hequal⟩ :=
    hgraph Memory.twinA (by simp [hkeys]) fun a _ => hlinked a
  have himport : Memory.twinB ∈ Memory.twins.toFileSystem.importsOf {} Memory.twinA := by
    simp [Memory.importsOf_twinA]
  obtain ⟨leaf, record, hleaf, hrecord⟩ :=
    htree.exists_record_iff.mpr ⟨by simp [hkeys], himport⟩
  have hlink := hlinked Memory.twinA leaf _ record hleaf hrecord (by decide +kernel)
  exact ⟨t, ht, g, hentry _ rfl, (hreached _).mpr (.step .root hleaf hrecord hlink), hequal⟩

end FileSystem

end ImportAtlas
