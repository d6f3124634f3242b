import ImportAtlas.Draft
import ImportAtlas.Proofs.Findings

/-!
# Proofs/Draft — what a draft knows about its modules

A draft is **sound** if its modules are what their analyses say and its edges are the imports of
just these modules.  One analysis keeps a draft sound (`Sound.addFindings`), hence a run over many
modules does (`Sound.analyzeEach`).  Once nothing more is added, linking is a matter of the keys
alone: `Sound.get?_link` says what each leaf becomes, in terms of the list of all modules and no
longer of the edges.
-/

namespace ImportAtlas

variable {fs : FileSystem} {config : Config} {d d' : Draft} {id : ModuleId} {leaf : Leaf}

namespace Draft

/-! ## Single additions -/

theorem hasEdge_eq_true {e : Edge} : d.hasEdge e = true ↔ e ∈ d.edges := List.contains_iff_mem

@[simp] theorem modules_addEdge (e : Edge) : (d.addEdge e).modules = d.modules := by
  unfold addEdge
  split <;> rfl

theorem mem_edges_addEdge {e e' : Edge} : e' ∈ (d.addEdge e).edges ↔ e' ∈ d.edges ∨ e' = e := by
  unfold addEdge
  split
  · rename_i h
    constructor
    · exact Or.inl
    · rintro (h' | rfl)
      · exact h'
      · exact hasEdge_eq_true.mp h
  · rw [List.mem_append, List.mem_singleton]

theorem modules_foldl_addEdge (ts : List ModuleId) (d : Draft) :
    (ts.foldl (fun d t => d.addEdge ⟨id, t⟩) d).modules = d.modules := by
  induction ts generalizing d with
  | nil => rfl
  | cons t ts ih => rw [List.foldl_cons, ih, modules_addEdge]

theorem mem_edges_foldl_addEdge {e : Edge} (ts : List ModuleId) (d : Draft) :
    e ∈ (ts.foldl (fun d t => d.addEdge ⟨id, t⟩) d).edges
      ↔ e ∈ d.edges ∨ e.importer = id ∧ e.target ∈ ts := by
  induction ts generalizing d with
  | nil => simp
  | cons t ts ih =>
    have heq : e = ⟨id, t⟩ ↔ e.importer = id ∧ e.target = t := by
      cases e
      simp
    rw [List.foldl_cons, ih, mem_edges_addEdge, heq, List.mem_cons, and_or_left, or_assoc]

@[simp] theorem keys_addModule (d : Draft) (leaf : Leaf) :
    (d.addModule leaf).modules.keys
      = if leaf.id ∈ d.modules.keys then d.modules.keys else d.modules.keys ++ [leaf.id] :=
  OrderedMap.keys_update ..

@[simp] theorem get?_addModule (d : Draft) (leaf : Leaf) (id : ModuleId) :
    (d.addModule leaf).modules.get? id
      = if id = leaf.id then some ((d.modules.get? id).getD leaf) else d.modules.get? id := by
  rw [addModule, OrderedMap.get?_update]
  split
  · rename_i h
    rw [h]
  · rfl

/-! ## One analysis -/

theorem analyze_eq_error {e : BuildError} (h : (fs.analyze config id).leaf = .error e) :
    d.analyze fs config id = (d.addFindings id (fs.analyze config id), .error e) :=
  Prod.ext rfl (by rw [analyze, h]; rfl)

section Findings

variable (h : (fs.analyze config id).leaf = .ok leaf)
include h

theorem analyze_eq_ok :
    d.analyze fs config id = (d.addFindings id (fs.analyze config id), .ok leaf.imports.keys) :=
  Prod.ext rfl (by rw [analyze, h]; rfl)

theorem modules_addFindings :
    (d.addFindings id (fs.analyze config id)).modules = (d.addModule leaf).modules := by
  simp only [addFindings, h, addModule, modules_foldl_addEdge]

/-- An analysis adds its module at the end, unless the draft has it already. -/
theorem keys_addFindings :
    (d.addFindings id (fs.analyze config id)).modules.keys
      = if id ∈ d.modules.keys then d.modules.keys else d.modules.keys ++ [id] := by
  rw [modules_addFindings h, keys_addModule, FileSystem.id_of_analyze h]

theorem mem_keys_addFindings {other : ModuleId} :
    other ∈ (d.addFindings id (fs.analyze config id)).modules.keys
      ↔ other ∈ d.modules.keys ∨ other = id := by
  rw [keys_addFindings h]
  split
  · rename_i hmem
    constructor
    · exact Or.inl
    · rintro (h' | rfl)
      · exact h'
      · exact hmem
  · rw [List.mem_append, List.mem_singleton]

/-- An analysis adds the edges to all that its module imports. -/
theorem mem_edges_addFindings {e : Edge} :
    e ∈ (d.addFindings id (fs.analyze config id)).edges
      ↔ e ∈ d.edges ∨ e.importer = id ∧ e.target ∈ fs.importsOf config id := by
  rw [FileSystem.importsOf_of_analyze h, ← FileSystem.mem_targets_iff h,
    ← mem_edges_foldl_addEdge]
  simp only [addFindings, h, addModule]

end Findings

/-! ## Sound drafts -/

/-- **A draft that says the truth about its modules**: each leaf is what the analysis answers, and
the edges are the imports of the modules of the draft, no more and no fewer. -/
structure Sound (fs : FileSystem) (config : Config) (d : Draft) : Prop where
  analyzed : ∀ {id leaf}, d.modules.get? id = some leaf → (fs.analyze config id).leaf = .ok leaf
  mem_edges : ∀ {e : Edge}, e ∈ d.edges ↔
    e.importer ∈ d.modules.keys ∧ e.target ∈ fs.importsOf config e.importer

theorem Sound.empty : Draft.empty.Sound fs config where
  analyzed h := by simp [Draft.empty] at h
  mem_edges := by simp [Draft.empty]

/-- A draft stays sound when modules are marked as visited. -/
theorem Sound.visit (hd : d.Sound fs config) (id : ModuleId) : (d.visit id).Sound fs config := by
  unfold Draft.visit
  split
  · exact hd
  · exact ⟨hd.analyzed, hd.mem_edges⟩

/-- **One analysis that succeeds keeps a draft sound.**  Of a module that is in the draft already
the old leaf stays; it is the same leaf, since the disk has not changed. -/
theorem Sound.addFindings (hd : d.Sound fs config) (h : (fs.analyze config id).leaf = .ok leaf) :
    (d.addFindings id (fs.analyze config id)).Sound fs config where
  analyzed {other leaf'} hget := by
    rw [modules_addFindings h, get?_addModule, FileSystem.id_of_analyze h] at hget
    split at hget
    · rename_i hother
      obtain rfl := hother
      cases hknown : d.modules.get? other with
      | none =>
        rw [hknown] at hget
        obtain rfl : leaf = leaf' := Option.some.inj hget
        exact h
      | some known =>
        rw [hknown] at hget
        obtain rfl : known = leaf' := Option.some.inj hget
        exact hd.analyzed hknown
    · exact hd.analyzed hget
  mem_edges {e} := by
    rw [mem_edges_addFindings h, mem_keys_addFindings h, hd.mem_edges, or_and_right]
    refine or_congr_right ⟨?_, ?_⟩
    · rintro ⟨rfl, ht⟩
      exact ⟨rfl, ht⟩
    · rintro ⟨rfl, ht⟩
      exact ⟨rfl, ht⟩

theorem Sound.mem_keys (hd : d.Sound fs config) (h : id ∈ d.modules.keys) :
    ∃ leaf, d.modules.get? id = some leaf ∧ (fs.analyze config id).leaf = .ok leaf := by
  obtain ⟨leaf, hget⟩ := OrderedMap.exists_get?_of_mem h
  exact ⟨leaf, hget, hd.analyzed hget⟩

/-- **Each edge of a sound draft has a record**, in the leaf of its importer. -/
theorem Sound.exists_record (hd : d.Sound fs config) {e : Edge} (he : e ∈ d.edges) :
    ∃ leaf record, (fs.analyze config e.importer).leaf = .ok leaf ∧
      leaf.importOf? e.target = some record ∧ d.recordOf? e = some record := by
  obtain ⟨hid, htarget⟩ := hd.mem_edges.mp he
  obtain ⟨leaf, hget, hleaf⟩ := hd.mem_keys hid
  rw [FileSystem.importsOf_of_analyze hleaf] at htarget
  obtain ⟨record, hrecord⟩ := OrderedMap.exists_get?_of_mem htarget
  refine ⟨leaf, record, hleaf, hrecord, ?_⟩
  rw [recordOf?, hget, Option.bind_some]
  exact hrecord

/-! ## Many analyses

A walk and an exploration both analyse modules one after the other; an exploration marks each as
visited before. -/

/-- The draft after the analysis of some modules, each marked before in the given way, and the
failure that ends the run. -/
def analyzeEach (fs : FileSystem) (config : Config) (mark : Draft → ModuleId → Draft) :
    List ModuleId → Draft → Draft × Option BuildError
  | [], d => (d, none)
  | id :: rest, d =>
    match (mark d id).analyze fs config id with
    | (d', .error e) => (d', some e)
    | (d', .ok _) => analyzeEach fs config mark rest d'

section Run

variable {mark : Draft → ModuleId → Draft} {ids more : List ModuleId} {e : BuildError}

theorem analyzeEach_cons : analyzeEach fs config mark (id :: ids) d
    = match (mark d id).analyze fs config id with
      | (d', .error e) => (d', some e)
      | (d', .ok _) => analyzeEach fs config mark ids d' := by rfl

theorem analyzeEach_cons_ok (h : (fs.analyze config id).leaf = .ok leaf) :
    analyzeEach fs config mark (id :: ids) d
      = analyzeEach fs config mark ids ((mark d id).addFindings id (fs.analyze config id)) := by
  rw [analyzeEach_cons, analyze_eq_ok h]

theorem analyzeEach_cons_error (h : (fs.analyze config id).leaf = .error e) :
    analyzeEach fs config mark (id :: ids) d
      = ((mark d id).addFindings id (fs.analyze config id), some e) := by
  rw [analyzeEach_cons, analyze_eq_error h]

/-- A run reads the analyses of its modules and nothing else. -/
theorem analyzeEach_congr {fs' : FileSystem} {config' : Config} {ids : List ModuleId}
    (hanalyze : ∀ id ∈ ids, fs.analyze config id = fs'.analyze config' id) (d : Draft) :
    analyzeEach fs config mark ids d = analyzeEach fs' config' mark ids d := by
  induction ids generalizing d with
  | nil => rfl
  | cons id ids ih =>
    obtain ⟨hid, hids⟩ := List.forall_mem_cons.mp hanalyze
    rw [analyzeEach_cons, analyzeEach_cons, analyze, analyze, hid]
    split
    · rfl
    · exact ih hids _

theorem analyzeEach_append : analyzeEach fs config mark (ids ++ more) d
    = match analyzeEach fs config mark ids d with
      | (d', none) => analyzeEach fs config mark more d'
      | (d', some e) => (d', some e) := by
  induction ids generalizing d with
  | nil => rfl
  | cons id ids ih =>
    rw [List.cons_append]
    cases hleaf : (fs.analyze config id).leaf with
    | ok leaf => rw [analyzeEach_cons_ok hleaf, analyzeEach_cons_ok hleaf, ih]
    | error e => rw [analyzeEach_cons_error hleaf, analyzeEach_cons_error hleaf]

/-- **A run ends with the first module whose analysis fails**, and with none if all succeed. -/
theorem analyzeEach_cases (fs : FileSystem) (config : Config) (mark : Draft → ModuleId → Draft)
    (ids : List ModuleId) (d : Draft) :
    (∃ d', analyzeEach fs config mark ids d = (d', none) ∧
      ∀ id ∈ ids, ∃ leaf, (fs.analyze config id).leaf = .ok leaf) ∨
    ∃ d' e before id after, analyzeEach fs config mark ids d = (d', some e) ∧
      ids = before ++ id :: after ∧
      (∀ b ∈ before, ∃ leaf, (fs.analyze config b).leaf = .ok leaf) ∧
      (fs.analyze config id).leaf = .error e := by
  induction ids generalizing d with
  | nil => exact Or.inl ⟨d, rfl, by simp⟩
  | cons id ids ih =>
    cases hleaf : (fs.analyze config id).leaf with
    | error e =>
      exact Or.inr ⟨_, e, [], id, ids, analyzeEach_cons_error hleaf, rfl, by simp, hleaf⟩
    | ok leaf =>
      rw [analyzeEach_cons_ok hleaf]
      rcases ih ((mark d id).addFindings id (fs.analyze config id)) with
        ⟨d', hd', hall⟩ | ⟨d', e, before, id', after, hd', rfl, hall, herror⟩
      · exact Or.inl ⟨d', hd', List.forall_mem_cons.mpr ⟨⟨leaf, hleaf⟩, hall⟩⟩
      · exact Or.inr ⟨d', e, id :: before, id', after, hd', rfl,
          List.forall_mem_cons.mpr ⟨⟨leaf, hleaf⟩, hall⟩, herror⟩

/-- **A run that succeeds keeps a draft sound and puts all new modules at the end**, in the order of
the run. -/
theorem Sound.analyzeEach (hmark : ∀ d id, (mark d id).modules = d.modules)
    (hmarked : ∀ {d : Draft} {id}, d.Sound fs config → (mark d id).Sound fs config)
    (hd : d.Sound fs config) (hnew : ∀ id ∈ ids, id ∉ d.modules.keys) (hnodup : ids.Nodup)
    (h : analyzeEach fs config mark ids d = (d', none)) :
    d'.Sound fs config ∧ d'.modules.keys = d.modules.keys ++ ids := by
  induction ids generalizing d with
  | nil =>
    obtain rfl : d = d' := congrArg Prod.fst h
    exact ⟨hd, (List.append_nil _).symm⟩
  | cons id ids ih =>
    obtain ⟨hid, hids⟩ := List.forall_mem_cons.mp hnew
    obtain ⟨hnot, hnodup⟩ := List.nodup_cons.mp hnodup
    cases hleaf : (fs.analyze config id).leaf with
    | error e =>
      rw [analyzeEach_cons_error hleaf] at h
      nomatch congrArg Prod.snd h
    | ok leaf =>
      rw [analyzeEach_cons_ok hleaf] at h
      have hkeys : ((mark d id).addFindings id (fs.analyze config id)).modules.keys
          = d.modules.keys ++ [id] := by rw [keys_addFindings hleaf, hmark, if_neg hid]
      obtain ⟨hd', hkeys'⟩ := ih ((hmarked hd).addFindings hleaf) (fun other hother => by
        rw [hkeys, List.mem_append, List.mem_singleton]
        rintro (hmem | rfl)
        · exact hids other hother hmem
        · exact hnot hother) hnodup h
      exact ⟨hd', by rw [hkeys', hkeys, List.append_assoc]; rfl⟩

/-- A run from nothing ends, if it succeeds, with a sound draft of just its modules. -/
theorem sound_of_run (hmark : ∀ d id, (mark d id).modules = d.modules)
    (hmarked : ∀ {d : Draft} {id}, d.Sound fs config → (mark d id).Sound fs config)
    (hnodup : ids.Nodup) (h : Draft.empty.analyzeEach fs config mark ids = (d, none)) :
    d.Sound fs config ∧ d.modules.keys = ids := by
  have hnew : ∀ id ∈ ids, id ∉ Draft.empty.modules.keys := by simp [Draft.empty]
  exact Sound.empty.analyzeEach hmark hmarked hnew hnodup h

end Run

end Draft

/-! ## Linking -/

namespace FileSystem

/-- The record of an import among the modules of a build: it is resolved if its target is one of
them, and mutual if the target is one of them and imports the module in turn. -/
def linkRecord (fs : FileSystem) (config : Config) (known : List ModuleId) (e : Edge)
    (record : ImportRecord) : ImportRecord :=
  { record with
    isMutual := decide (e.target ∈ known ∧ e.importer ∈ fs.importsOf config e.target)
    resolved := if e.target ∈ known then some e.target else none }

/-- The leaf of a module among the modules of a build. -/
def linkLeaf (fs : FileSystem) (config : Config) (known : List ModuleId) (leaf : Leaf) : Leaf :=
  { leaf with
    imports := leaf.imports.mapValues fun target => fs.linkRecord config known ⟨leaf.id, target⟩ }

@[simp] theorem id_linkLeaf (known : List ModuleId) (leaf : Leaf) :
    (fs.linkLeaf config known leaf).id = leaf.id := rfl

@[simp] theorem keys_imports_linkLeaf (known : List ModuleId) (leaf : Leaf) :
    (fs.linkLeaf config known leaf).imports.keys = leaf.imports.keys :=
  OrderedMap.keys_mapValues ..

theorem importOf?_linkLeaf (known : List ModuleId) (leaf : Leaf) (target : ModuleId) :
    (fs.linkLeaf config known leaf).importOf? target
      = (leaf.importOf? target).map (fs.linkRecord config known ⟨leaf.id, target⟩) :=
  OrderedMap.get?_mapValues ..

end FileSystem

namespace Draft

/-- **Linking an edge of a sound draft reads nothing but the keys.** -/
theorem Sound.linkRecord_eq (hd : d.Sound fs config) {e : Edge} (he : e ∈ d.edges)
    (record : ImportRecord) :
    d.linkRecord e record = fs.linkRecord config d.modules.keys e record := by
  have hedge : d.hasEdge e = true := hasEdge_eq_true.mpr he
  have hflip : d.hasEdge e.flip
      = decide (e.target ∈ d.modules.keys ∧ e.importer ∈ fs.importsOf config e.target) := by
    rw [Bool.eq_iff_iff, decide_eq_true_iff, hasEdge_eq_true, hd.mem_edges]
    rfl
  simp only [Draft.linkRecord, FileSystem.linkRecord, hedge, hflip, if_true, hasModule,
    OrderedMap.contains_eq_true]

/-- **What linking makes of a module of a sound draft.** -/
theorem Sound.get?_link (hd : d.Sound fs config) (h : id ∈ d.modules.keys) :
    ∃ leaf, (fs.analyze config id).leaf = .ok leaf ∧
      d.link.modules.get? id = some (fs.linkLeaf config d.modules.keys leaf) := by
  obtain ⟨leaf, hget, hleaf⟩ := hd.mem_keys h
  refine ⟨leaf, hleaf, ?_⟩
  simp only [link, OrderedMap.get?_mapValues, hget, Option.map_some, FileSystem.linkLeaf,
    FileSystem.id_of_analyze hleaf]
  congr 2
  refine OrderedMap.mapValues_congr fun target htarget record => hd.linkRecord_eq ?_ record
  exact hd.mem_edges.mpr ⟨h, by rwa [FileSystem.importsOf_of_analyze hleaf]⟩

@[simp] theorem keys_link (d : Draft) : d.link.modules.keys = d.modules.keys :=
  OrderedMap.keys_mapValues ..

end Draft

namespace FileSystem

/-- **The modules of a finished build**: each is what its analysis says, linked among them all. -/
def Assembled (fs : FileSystem) (config : Config) (modules : OrderedMap ModuleId Leaf) : Prop :=
  ∀ id ∈ modules.keys, ∃ leaf, (fs.analyze config id).leaf = .ok leaf ∧
    modules.get? id = some (fs.linkLeaf config modules.keys leaf)

theorem assembled_link (hd : d.Sound fs config) : fs.Assembled config d.link.modules := by
  intro id hid
  rw [Draft.keys_link] at hid ⊢
  exact hd.get?_link hid

variable {modules : OrderedMap ModuleId Leaf}

theorem Assembled.exists_leaf (h : fs.Assembled config modules) (hid : id ∈ modules.keys) :
    ∃ leaf, (fs.analyze config id).leaf = .ok leaf := by
  obtain ⟨leaf, hleaf, _⟩ := h id hid
  exact ⟨leaf, hleaf⟩

theorem Assembled.analyzed (h : fs.Assembled config modules) (hget : modules.get? id = some leaf) :
    ∃ raw, (fs.analyze config id).leaf = .ok raw ∧ leaf = fs.linkLeaf config modules.keys raw := by
  obtain ⟨raw, hraw, hget'⟩ := h id (OrderedMap.mem_keys_of_get? hget)
  exact ⟨raw, hraw, Option.some.inj (hget.symm.trans hget')⟩

/-- The key of a module is its identity. -/
theorem Assembled.id_eq (h : fs.Assembled config modules) (hget : modules.get? id = some leaf) :
    leaf.id = id := by
  obtain ⟨raw, hraw, rfl⟩ := h.analyzed hget
  exact (id_linkLeaf ..).trans (id_of_analyze hraw)

/-- A leaf has records for just the files that its module imports. -/
theorem Assembled.keys_imports (h : fs.Assembled config modules)
    (hget : modules.get? id = some leaf) : leaf.imports.keys = fs.importsOf config id := by
  obtain ⟨raw, hraw, rfl⟩ := h.analyzed hget
  rw [keys_imports_linkLeaf, importsOf_of_analyze hraw]

/-- **A record of a finished build, in terms of the keys alone.** -/
theorem Assembled.record_eq (h : fs.Assembled config modules) (hget : modules.get? id = some leaf)
    {target : ModuleId} {record : ImportRecord} (hrecord : leaf.importOf? target = some record) :
    ∃ raw, record = fs.linkRecord config modules.keys ⟨id, target⟩ raw := by
  obtain ⟨rawLeaf, hraw, rfl⟩ := h.analyzed hget
  rw [importOf?_linkLeaf, id_of_analyze hraw] at hrecord
  obtain ⟨raw, _, rfl⟩ := Option.map_eq_some_iff.mp hrecord
  exact ⟨raw, rfl⟩

end FileSystem

end ImportAtlas
