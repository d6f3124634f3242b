import ImportAtlas.Proofs.DepthFirst
import ImportAtlas.Proofs.Draft

/-!
# Proofs/Reachability — an exploration comes to what is reachable, in preorder

An exploration keeps one list of modules to go to, and looks a module up among the visited ones when
its turn comes.  `explore_append` reads that list as a depth-first search: the modules of its
preorder are visited and analysed one by one, up to the first that fails.  So a graph holds what the
entry reaches, in preorder, and there is no graph as soon as something fails that the entry reaches.
-/

namespace ImportAtlas

variable {fs : FileSystem} {config : Config} {d d' : Draft} {id : ModuleId} {leaf : Leaf}
  {e : BuildError} {seen todo order ids : List ModuleId}

/-! ## Visits -/

namespace Draft

theorem visited_visit (h : id ∉ d.visited) : (d.visit id).visited = d.visited ++ [id] := by
  have hnew : d.isVisited id = false := by simpa [isVisited] using h
  rw [visit, if_neg (by simp [hnew])]

@[simp] theorem modules_visit (d : Draft) (id : ModuleId) : (d.visit id).modules = d.modules := by
  unfold visit
  split <;> rfl

/-- Visits to new modules mark just these, in order. -/
theorem visited_analyzeEach (hnew : ∀ id ∈ ids, id ∉ d.visited) (hnodup : ids.Nodup)
    (h : analyzeEach fs config visit ids d = (d', none)) : d'.visited = d.visited ++ ids := by
  induction ids generalizing d with
  | nil =>
    obtain rfl : d = d' := congrArg Prod.fst h
    exact (List.append_nil _).symm
  | cons id ids ih =>
    obtain ⟨hid, hids⟩ := List.forall_mem_cons.mp hnew
    obtain ⟨hnot, hnodup⟩ := List.nodup_cons.mp hnodup
    cases hleaf : (fs.analyze config id).leaf with
    | error e =>
      rw [analyzeEach_cons_error hleaf] at h
      nomatch congrArg Prod.snd h
    | ok leaf =>
      rw [analyzeEach_cons_ok hleaf] at h
      have hvisited : ((d.visit id).addFindings id (fs.analyze config id)).visited
          = d.visited ++ [id] := by rw [visited_addFindings, visited_visit hid]
      rw [ih (fun other hother => ?_) hnodup h, hvisited, List.append_assoc]
      · rfl
      · rw [hvisited, List.mem_append, List.mem_singleton]
        rintro (hmem | rfl)
        · exact hids other hother hmem
        · exact hnot hother

end Draft

/-! ## The list of modules to go to -/

namespace FileSystem

theorem explore_nil (fs : FileSystem) (config : Config) (d : Draft) :
    fs.explore config [] d = (d, none) := by
  rw [explore]

theorem explore_cons_visited (hid : ModuleId.ofPath id.path = id) (h : id ∈ d.visited) :
    fs.explore config (id :: todo) d = fs.explore config todo d := by
  have hvisited : d.isVisited id = true := by simpa [Draft.isVisited] using h
  rw [explore, hid, dif_pos hvisited]

theorem explore_cons_ok (hid : ModuleId.ofPath id.path = id) (hnew : id ∉ d.visited)
    (h : (fs.analyze config id).leaf = .ok leaf) :
    fs.explore config (id :: todo) d
      = fs.explore config (fs.modulesFrom config id ++ todo)
          ((d.visit id).addFindings id (fs.analyze config id)) := by
  have hvisited : ¬ d.isVisited id = true := by simpa [Draft.isVisited] using hnew
  rw [explore, hid, dif_neg hvisited]
  split
  · rename_i heq
    rw [Draft.analyze_eq_ok h] at heq
    cases heq
  · rename_i heq
    rw [Draft.analyze_eq_ok h] at heq
    cases heq
    rw [modulesFrom, importsOf_of_analyze h]

theorem explore_cons_error (hid : ModuleId.ofPath id.path = id) (hnew : id ∉ d.visited)
    (h : (fs.analyze config id).leaf = .error e) :
    fs.explore config (id :: todo) d
      = ((d.visit id).addFindings id (fs.analyze config id), some e) := by
  have hvisited : ¬ d.isVisited id = true := by simpa [Draft.isVisited] using hnew
  rw [explore, hid, dif_neg hvisited]
  split
  · rename_i heq
    rw [Draft.analyze_eq_error h] at heq
    cases heq
    rfl
  · rename_i heq
    rw [Draft.analyze_eq_error h] at heq
    cases heq

/-- **An exploration visits the modules of a preorder one by one**, up to the first whose analysis
fails, and only then goes on to the rest of its list. -/
theorem explore_append (h : DepthFirst (fs.modulesFrom config) seen todo order)
    (htodo : ∀ id ∈ todo, ModuleId.ofPath id.path = id) (hseen : d.visited = seen)
    (rest : List ModuleId) :
    fs.explore config (todo ++ rest) d
      = match d.analyzeEach fs config .visit order with
        | (d', none) => fs.explore config rest d'
        | (d', some e) => (d', some e) := by
  induction h generalizing d rest with
  | nil => rfl
  | skip hv _ ih =>
    obtain ⟨hid, htodo⟩ := List.forall_mem_cons.mp htodo
    rw [List.cons_append, explore_cons_visited hid (hseen ▸ hv)]
    exact ih htodo hseen rest
  | @enter seen todo below after id hv inner later ihInner ihLater =>
    obtain ⟨hid, htodo⟩ := List.forall_mem_cons.mp htodo
    rw [List.cons_append, List.cons_append]
    cases hleaf : (fs.analyze config id).leaf with
    | error e =>
      rw [explore_cons_error hid (hseen ▸ hv) hleaf, Draft.analyzeEach_cons_error hleaf]
    | ok leaf =>
      have hvisited : ((d.visit id).addFindings id (fs.analyze config id)).visited
          = seen ++ [id] := by
        rw [Draft.visited_addFindings, Draft.visited_visit (hseen ▸ hv), hseen]
      rw [explore_cons_ok hid (hseen ▸ hv) hleaf, Draft.analyzeEach_cons_ok hleaf,
        Draft.analyzeEach_append, ihInner ofPath_of_mem_modulesFrom hvisited]
      -- What is below the module has been visited when the search goes on behind it.
      cases hrun : Draft.analyzeEach fs config .visit below
          ((d.visit id).addFindings id (fs.analyze config id)) with
      | mk d' failure =>
        cases failure with
        | some e => rfl
        | none =>
          refine ihLater htodo ?_ rest
          rw [Draft.visited_analyzeEach (fun w hw => ?_) inner.nodup hrun, hvisited,
            List.append_assoc]
          · rfl
          · rw [hvisited]
            exact inner.notMem_seen hw

/-! ## What is reached -/

/-- **The modules that are reached from one of them**: the module itself, and with any module whose
analysis succeeds all module files that it imports. -/
inductive Reaches (fs : FileSystem) (config : Config) (root : ModuleId) : ModuleId → Prop
  | root : Reaches fs config root root
  | step {a b : ModuleId} {leaf : Leaf} (ha : Reaches fs config root a)
      (hleaf : (fs.analyze config a).leaf = .ok leaf) (hb : b ∈ leaf.imports.keys)
      (hfile : b.path.isModuleFile = true) : Reaches fs config root b

variable {root : ModuleId}

theorem Reaches.of_mem_modulesFrom {a b : ModuleId} (ha : fs.Reaches config root a)
    (hb : b ∈ fs.modulesFrom config a) : fs.Reaches config root b := by
  obtain ⟨himports, hfile⟩ := mem_modulesFrom.mp hb
  obtain ⟨leaf, hleaf, hb⟩ := exists_leaf_of_mem_importsOf himports
  exact ha.step hleaf hb hfile

/-- **The preorder from a module consists of what the module reaches.** -/
theorem mem_preorder_iff (h : DepthFirst (fs.modulesFrom config) [] [root] order) :
    id ∈ order ↔ fs.Reaches config root id := by
  constructor
  · refine fun hid => h.forall_mem (fun v hv => ?_) (fun v w => Reaches.of_mem_modulesFrom) id hid
    rw [List.mem_singleton.mp hv]
    exact .root
  · intro hid
    induction hid with
    | root => simpa using h.mem_of_mem_todo List.mem_cons_self
    | step _ hleaf hb hfile ih =>
      have hmem := mem_modulesFrom.mpr ⟨(importsOf_of_analyze hleaf).symm ▸ hb, hfile⟩
      simpa using h.mem_of_mem_succ ih hmem

/-- A clean module that imports anything is one of the files that can be read. -/
theorem mem_files_of_modulesFrom (hid : ModuleId.ofPath id.path = id)
    (h : fs.modulesFrom config id ≠ []) : id ∈ fs.files.map ModuleId.mk := by
  obtain ⟨t, ht⟩ := List.exists_mem_of_ne_nil _ h
  obtain ⟨leaf, hleaf, _⟩ := exists_leaf_of_mem_importsOf (mem_modulesFrom.mp ht).1
  obtain ⟨bytes, hbytes⟩ := contents_of_analyze hleaf
  exact List.mem_map.mpr ⟨id.path, mem_files (congrArg ModuleId.path hid) hbytes, rfl⟩

/-- **From every module there is a preorder**, whether analyses fail or not. -/
theorem exists_preorder (fs : FileSystem) (config : Config) (root : ModuleId)
    (hroot : ModuleId.ofPath root.path = root) :
    ∃ order, DepthFirst (fs.modulesFrom config) [] [root] order := by
  refine DepthFirst.exists_order (fs.files.map ModuleId.mk) (fun v w hw => ?_) [] [root]
    fun w hw => ?_
  · exact mem_files_of_modulesFrom (ofPath_of_mem_modulesFrom w hw)
  · rw [List.mem_singleton.mp hw]
    exact mem_files_of_modulesFrom hroot

/-! ## Graphs -/

/-- The draft that an exploration of everything from a module ends with: sound, and made of the
modules of the preorder. -/
theorem explore_of_preorder (hroot : ModuleId.ofPath root.path = root)
    (h : DepthFirst (fs.modulesFrom config) [] [root] order) :
    fs.explore config [root] .empty = Draft.empty.analyzeEach fs config .visit order := by
  have key := fs.explore_append (d := Draft.empty) h (by simpa using hroot) rfl []
  rw [List.append_nil] at key
  rw [key]
  cases hrun : Draft.empty.analyzeEach fs config .visit order with
  | mk d failure =>
    cases failure with
    | some e => rfl
    | none => exact explore_nil ..

/-- **The graph from an entry**: the modules of the preorder if all their analyses succeed, and the
first failure among them if not. -/
theorem graphFrom_cases (fs : FileSystem) (config : Config) (entry : Path)
    (h : DepthFirst (fs.modulesFrom config) [] [.ofPath entry] order) :
    (∃ d g, fs.graphFrom config entry = .ok g ∧
      fs.explore config [.ofPath entry] .empty = (d, none) ∧
      d.Sound fs config ∧ d.visited = order ∧ d.modules.keys = order ∧
      g.modules = d.link.modules ∧ g.modules.get? (.ofPath entry) = some g.root) ∨
    ∃ e before id after, fs.graphFrom config entry = .error e ∧ order = before ++ id :: after ∧
      (∀ b ∈ before, ∃ leaf, (fs.analyze config b).leaf = .ok leaf) ∧
      (fs.analyze config id).leaf = .error e := by
  have hexplore := explore_of_preorder (ofPath_path_ofPath entry) h
  rcases Draft.analyzeEach_cases fs config .visit order .empty with
    ⟨d, hrun, _⟩ | ⟨d, e, before, id, after, hrun, hsplit, hall, herror⟩
  · rw [hrun] at hexplore
    have hvisited := Draft.visited_analyzeEach (by simp [Draft.empty]) h.nodup hrun
    obtain ⟨hsound, hkeys⟩ :=
      Draft.sound_of_run Draft.modules_visit (fun hd => hd.visit _) h.nodup hrun
    have hmem : ModuleId.ofPath entry ∈ d.modules.keys :=
      hkeys ▸ (mem_preorder_iff h).mpr .root
    obtain ⟨leaf, _, hget⟩ := hsound.get?_link hmem
    refine Or.inl ⟨d, ⟨fs.linkLeaf config d.modules.keys leaf, d.link.modules⟩, ?_, hexplore,
      hsound, hvisited, hkeys, rfl, hget⟩
    simp only [graphFrom, hexplore, hget]
  · refine Or.inr ⟨e, before, id, after, ?_, hsplit, hall, herror⟩
    simp only [graphFrom, hexplore, hrun]

section Graph

variable {entry : Path} {g : ModuleGraph}

/-- **A graph reads the analyses and nothing else.** -/
theorem graphFrom_congr {config' : Config}
    (hanalyze : ∀ id, fs.analyze config id = fs.analyze config' id) (entry : Path) :
    fs.graphFrom config entry = fs.graphFrom config' entry := by
  have hmodules : fs.modulesFrom config = fs.modulesFrom config' :=
    funext fun id => by rw [modulesFrom, modulesFrom, importsOf, importsOf, hanalyze]
  have hroot := ofPath_path_ofPath entry
  obtain ⟨order, horder⟩ := fs.exists_preorder config (.ofPath entry) hroot
  have hexplore : fs.explore config [.ofPath entry] .empty
      = fs.explore config' [.ofPath entry] .empty := by
    rw [explore_of_preorder hroot horder, explore_of_preorder hroot (hmodules ▸ horder),
      Draft.analyzeEach_congr fun id _ => hanalyze id]
  rw [graphFrom, graphFrom, hexplore]

/-- What a graph consists of: its modules are a preorder from the entry, and all that the
exploration has visited. -/
theorem graphFrom_eq_ok (h : fs.graphFrom config entry = .ok g) :
    ∃ d, fs.explore config [.ofPath entry] .empty = (d, none) ∧
      DepthFirst (fs.modulesFrom config) [] [.ofPath entry] g.modules.keys ∧
      d.visited = g.modules.keys ∧ g.modules = d.link.modules ∧ fs.Assembled config g.modules ∧
      g.modules.get? (.ofPath entry) = some g.root := by
  obtain ⟨order, horder⟩ := fs.exists_preorder config (.ofPath entry) (ofPath_path_ofPath _)
  rcases fs.graphFrom_cases config entry horder with
    ⟨d, g', hg', hexplore, hsound, hvisited, hkeys, hmodules, hroot⟩ | ⟨e, _, _, _, he, _⟩
  · obtain rfl : g = g' := Except.ok.inj (h.symm.trans hg')
    have hpreorder : g.modules.keys = order := by rw [hmodules, Draft.keys_link, hkeys]
    exact ⟨d, hexplore, hpreorder ▸ horder, hvisited.trans hpreorder.symm, hmodules,
      hmodules ▸ assembled_link hsound, hroot⟩
  · nomatch h.symm.trans he

/-- The error of an exploration is that of the first module in preorder whose analysis fails. -/
theorem graphFrom_eq_error (h : fs.graphFrom config entry = .error e) :
    ∃ before id after,
      DepthFirst (fs.modulesFrom config) [] [.ofPath entry] (before ++ id :: after) ∧
      (∀ b ∈ before, ∃ leaf, (fs.analyze config b).leaf = .ok leaf) ∧
      (fs.analyze config id).leaf = .error e := by
  obtain ⟨order, horder⟩ := fs.exists_preorder config (.ofPath entry) (ofPath_path_ofPath _)
  rcases fs.graphFrom_cases config entry horder with
    ⟨_, _, hg, _⟩ | ⟨e', before, id, after, he', rfl, hall, herror⟩
  · nomatch h.symm.trans hg
  · obtain rfl : e = e' := Except.error.inj (h.symm.trans he')
    exact ⟨before, id, after, horder, hall, herror⟩

theorem mem_keys_graphFrom (h : fs.graphFrom config entry = .ok g) :
    id ∈ g.modules.keys ↔ fs.Reaches config (.ofPath entry) id := by
  obtain ⟨_, _, horder, _⟩ := graphFrom_eq_ok h
  exact mem_preorder_iff horder

theorem assembled_graphFrom (h : fs.graphFrom config entry = .ok g) :
    fs.Assembled config g.modules := by
  obtain ⟨_, _, _, _, _, hassembled, _⟩ := graphFrom_eq_ok h
  exact hassembled

/-- **There is a graph if and only if nothing fails that the entry reaches.** -/
theorem exists_graphFrom_iff : (∃ g, fs.graphFrom config entry = .ok g) ↔
    ∀ id, fs.Reaches config (.ofPath entry) id →
      ∃ leaf, (fs.analyze config id).leaf = .ok leaf := by
  constructor
  · rintro ⟨g, hg⟩ id hid
    exact (assembled_graphFrom hg).exists_leaf ((mem_keys_graphFrom hg).mpr hid)
  · intro hok
    cases hg : fs.graphFrom config entry with
    | ok g => exact ⟨g, rfl⟩
    | error e =>
      obtain ⟨before, id, after, horder, _, herror⟩ := graphFrom_eq_error hg
      obtain ⟨leaf, hleaf⟩ := hok id ((mem_preorder_iff horder).mp (by simp))
      nomatch hleaf.symm.trans herror

/-- What is reached from one of some modules that are built by themselves is one of them. -/
theorem IsSelfContained.mem_of_reaches {ids : List ModuleId} (h : fs.IsSelfContained config ids)
    (hroot : root ∈ ids) (hid : fs.Reaches config root id) : id ∈ ids := by
  induction hid with
  | root => exact hroot
  | step _ hleaf hb _ ih => exact h.closed _ ih _ ((importsOf_of_analyze hleaf).symm ▸ hb)

theorem IsSelfContained.exists_graph {ids : List ModuleId} (h : fs.IsSelfContained config ids)
    (hentry : .ofPath entry ∈ ids) : ∃ g, fs.graphFrom config entry = .ok g :=
  exists_graphFrom_iff.mpr fun _ hid => h.exists_leaf (h.mem_of_reaches hentry hid)

/-- A graph is explored from the absolute form of its entry. -/
theorem moduleGraph_of_absolute {top : Path} (h : fs.absolute entry = .ok top) :
    fs.moduleGraph config entry = fs.graphFrom config top := by
  rw [moduleGraph, h]
  rfl

theorem graphFrom_of_moduleGraph (h : fs.moduleGraph config entry = .ok g) :
    ∃ top, fs.absolute entry = .ok top ∧ fs.graphFrom config top = .ok g := by
  obtain ⟨top, htop, hgraph⟩ := exists_ok_of_bind h
  exact ⟨top, eq_ok_of_mapError htop, hgraph⟩

end Graph

end FileSystem

namespace Memory

/-- The twins reach each other. -/
theorem reaches_twins : twins.toFileSystem.Reaches {} twinA id ↔ id = twinA ∨ id = twinB := by
  constructor
  · intro h
    simpa using isSelfContained_twins.mem_of_reaches (by simp) h
  · rintro (rfl | rfl)
    · exact .root
    · refine FileSystem.Reaches.root.of_mem_modulesFrom (FileSystem.mem_modulesFrom.mpr ⟨?_, ?_⟩)
      · exact importsOf_twinA ▸ List.mem_singleton_self _
      · decide +kernel

end Memory

namespace FileSystem

/-- **A graph is what its entry reaches.**  There is a graph from an entry if and only if all
modules that the entry reaches are analysed with success.  Its modules are then the reached ones,
in preorder; its root is the leaf of the entry, and the exploration has visited its modules and
nothing else.  If there is none, the error is that of the first module in preorder whose analysis
fails. -/
theorem moduleGraph_isReached (fs : FileSystem) (config : Config) {entry : Path}
    (habsolute : entry.isAbsolute = true) :
    ((∃ g, fs.moduleGraph config entry = .ok g) ↔
      ∀ id, fs.Reaches config (.ofPath entry) id →
        ∃ leaf, (fs.analyze config id).leaf = .ok leaf) ∧
    (∀ g, fs.moduleGraph config entry = .ok g →
      (∀ id, id ∈ g.modules.keys ↔ fs.Reaches config (.ofPath entry) id) ∧
      g.modules.keys.Nodup ∧
      DepthFirst (fs.modulesFrom config) [] [.ofPath entry] g.modules.keys ∧
      g.modules.get? (.ofPath entry) = some g.root ∧ g.root.id = .ofPath entry ∧
      ∃ d, fs.explore config [.ofPath entry] .empty = (d, none) ∧ g.modules = d.link.modules ∧
        ∀ id, id ∈ d.visited ↔ id ∈ g.modules.keys) ∧
    (∀ e, fs.moduleGraph config entry = .error e →
      ∃ order before id after,
        DepthFirst (fs.modulesFrom config) [] [.ofPath entry] order ∧
        (∀ b, b ∈ order ↔ fs.Reaches config (.ofPath entry) b) ∧
        order = before ++ id :: after ∧
        (∀ b ∈ before, ∃ leaf, (fs.analyze config b).leaf = .ok leaf) ∧
        (fs.analyze config id).leaf = .error e) := by
  have htop : fs.absolute entry = .ok entry.clean := by rw [absolute, if_pos habsolute]
  rw [moduleGraph_of_absolute htop, ← ofPath_clean entry]
  refine ⟨exists_graphFrom_iff, fun g hg => ?_, fun e he => ?_⟩
  · obtain ⟨d, hexplore, horder, hvisited, hmodules, hassembled, hroot⟩ := graphFrom_eq_ok hg
    exact ⟨fun id => mem_keys_graphFrom hg, g.modules.nodup_keys, horder, hroot,
      hassembled.id_eq hroot, d, hexplore, hmodules, fun id => by rw [hvisited]⟩
  · obtain ⟨before, id, after, horder, hall, herror⟩ := graphFrom_eq_error he
    exact ⟨_, before, id, after, horder, fun b => mem_preorder_iff horder, rfl, hall, herror⟩

/-- Two modules that import each other make a graph of these two. -/
theorem moduleGraph_twins : (Path.mk "/a.ts").isAbsolute = true ∧
    ∃ g, Memory.twins.toFileSystem.moduleGraph {} ⟨"/a.ts"⟩ = .ok g ∧
      ∀ id, id ∈ g.modules.keys ↔ id = Memory.twinA ∨ id = Memory.twinB := by
  have habsolute : (Path.mk "/a.ts").isAbsolute = true := by decide
  have hentry : ModuleId.ofPath ⟨"/a.ts"⟩ = Memory.twinA := by decide +kernel
  obtain ⟨hiff, hgraph, _⟩ := moduleGraph_isReached Memory.twins.toFileSystem {} habsolute
  rw [hentry] at hiff hgraph
  obtain ⟨g, hg⟩ := hiff.mpr fun id hid => Memory.exists_leaf_twins id (Memory.reaches_twins.mp hid)
  exact ⟨habsolute, g, hg, fun id => ((hgraph g hg).1 id).trans Memory.reaches_twins⟩

end FileSystem

end ImportAtlas
