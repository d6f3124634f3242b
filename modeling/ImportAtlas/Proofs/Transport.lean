import ImportAtlas.Proofs.Coincidence
import ImportAtlas.Proofs.Subwalk
import Mathlib.Data.List.Nodup

/-!
# Proofs/Transport — builds are carried along a map of paths

A map of paths that is injective where a build comes to, and that carries the analyses and the
listings of one disk into those of another one, carries the builds along: a graph into the graph of
the image of its entry (`CarriesTo.graphFrom_eq`), a tree into the tree of the image of its directory
(`CarriesTo.walk_eq`).  Nothing is asked for outside of the part of the disk that a build comes to.
-/

namespace ImportAtlas

/-! ## Maps with other keys -/

namespace OrderedMap

variable {κ κ' α β : Type} [DecidableEq κ] [DecidableEq κ'] {f : κ → κ'} {g : α → β}
  {es : List (κ × α)} {m : OrderedMap κ α} {key : κ}

/-- The map with its keys and its values changed. -/
def mapEntries (f : κ → κ') (g : α → β) (m : OrderedMap κ α) : OrderedMap κ' β :=
  .ofList (m.entries.map (Prod.map f g))

theorem updateEntries_map {u : Option α → α} {u' : Option β → β}
    (hf : ∀ k ∈ es.map Prod.fst, f k = f key → k = key) (hu : ∀ o, u' (o.map g) = g (u o)) :
    updateEntries (f key) u' (es.map (Prod.map f g)) = (updateEntries key u es).map (Prod.map f g) := by
  induction es with
  | nil => exact congrArg (fun b => [(f key, b)]) (hu none)
  | cons e es ih =>
    obtain ⟨he, hes⟩ := List.forall_mem_cons.mp hf
    rw [List.map_cons, updateEntries, updateEntries, Prod.map_fst]
    by_cases hkey : e.1 = key
    · rw [if_pos (congrArg f hkey), if_pos hkey, List.map_cons]
      exact congrArg (fun b => (f key, b) :: _) (hu (some e.2))
    · rw [if_neg fun heq => hkey (he heq), if_neg hkey, ih hes, List.map_cons]

section Injective

variable (hf : ∀ a ∈ m.keys, ∀ b ∈ m.keys, f a = f b → a = b)
include hf

omit [DecidableEq κ] in
theorem entries_mapEntries : (m.mapEntries f g).entries = m.entries.map (Prod.map f g) := by
  refine entries_ofList ?_
  have hkeys : (m.entries.map (Prod.map f g)).map Prod.fst = m.keys.map f := by
    rw [List.map_map, keys, List.map_map]
    rfl
  rw [hkeys]
  exact List.Nodup.map_on hf m.nodup_keys

omit [DecidableEq κ] in
theorem keys_mapEntries : (m.mapEntries f g).keys = m.keys.map f := by
  rw [keys, entries_mapEntries hf, keys, List.map_map, List.map_map]
  rfl

theorem get?_mapEntries (hkey : key ∈ m.keys) :
    (m.mapEntries f g).get? (f key) = (m.get? key).map g := by
  obtain ⟨a, ha⟩ := exists_get?_of_mem hkey
  rw [ha, Option.map_some, get?_eq_some_iff, entries_mapEntries hf]
  exact List.mem_map_of_mem (f := Prod.map f g) (get?_eq_some_iff.mp ha)

end Injective

omit [DecidableEq κ'] in
theorem forall_mem_keys_update {inside : κ → Prop} (hm : ∀ a ∈ m.keys, inside a)
    (hkey : inside key) (u : Option α → α) : ∀ a ∈ (m.update key u).keys, inside a := by
  intro a ha
  rw [keys_update] at ha
  split at ha
  · exact hm a ha
  · rcases List.mem_append.mp ha with ha | ha
    · exact hm a ha
    · exact List.mem_singleton.mp ha ▸ hkey

/-- **A change of one value is carried along**, if the keys stay apart. -/
theorem mapEntries_update {inside : κ → Prop} (hf : ∀ {a b}, inside a → inside b → f a = f b → a = b)
    (hm : ∀ a ∈ m.keys, inside a) (hkey : inside key) {u : Option α → α} {u' : Option β → β}
    (hu : ∀ o, u' (o.map g) = g (u o)) :
    (m.update key u).mapEntries f g = (m.mapEntries f g).update (f key) u' := by
  have hkeys := forall_mem_keys_update hm hkey u
  refine ext ?_
  rw [entries_mapEntries fun a ha b hb => hf (hkeys a ha) (hkeys b hb)]
  change _ = updateEntries (f key) u' (m.mapEntries f g).entries
  rw [entries_mapEntries fun a ha b hb => hf (hm a ha) (hm b hb)]
  exact (updateEntries_map (fun a ha => hf (hm a ha) hkey) hu).symm

end OrderedMap

/-! ## Results with other paths -/

variable (g : Path → Path)

/-- The module at the image of the path. -/
def ModuleId.relocate (id : ModuleId) : ModuleId := ⟨g id.path⟩

/-- The record, linked to the image of the other module. -/
def ImportRecord.relocate (record : ImportRecord) : ImportRecord :=
  { record with resolved := record.resolved.map (ModuleId.relocate g) }

/-- The module at the image of its path, with its imports. -/
def Leaf.relocate (leaf : Leaf) : Leaf :=
  { leaf with
    id := leaf.id.relocate g
    imports := leaf.imports.mapEntries (ModuleId.relocate g) (ImportRecord.relocate g) }

/-- The modules at the images of their paths. -/
def relocateModules (modules : OrderedMap ModuleId Leaf) : OrderedMap ModuleId Leaf :=
  modules.mapEntries (ModuleId.relocate g) (Leaf.relocate g)

/-- The directories and modules at the images of their paths. -/
def Node.relocate : Node → Node
  | directory path children => directory (g path) (children.map relocate)
  | file leaf => file (leaf.relocate g)

/-- **The graph with each path replaced by its image.** -/
def ModuleGraph.relocate (graph : ModuleGraph) : ModuleGraph :=
  ⟨graph.root.relocate g, relocateModules g graph.modules⟩

/-- The directory at the image of its path, with all that is below it. -/
def Tree.relocate (t : Tree) : Tree := ⟨g t.path, t.children.map (Node.relocate g)⟩

/-- **The tree with each path replaced by its image.** -/
def DependencyTree.relocate (t : DependencyTree) : DependencyTree :=
  ⟨t.root.relocate g, relocateModules g t.modules⟩

/-- What is directly in the image of a directory. -/
def Listing.relocate (l : Listing) : Listing :=
  ⟨l.subdirs.map g, l.files.map (ModuleId.relocate g)⟩

/-- The layout of the image of a directory. -/
def Layout.relocate : Layout → Layout
  | mk path subdirs files => mk (g path) (subdirs.map relocate) (files.map (ModuleId.relocate g))

/-! ## Records -/

theorem ImportRecord.merge_relocate (statement : ImportStatement) (known : Option ImportRecord) :
    ImportRecord.merge statement (known.map (relocate g))
      = (ImportRecord.merge statement known).relocate g := by
  cases known <;> rfl

/-- **The records of statements are carried along** with the files that they lead to. -/
theorem importRecords_relocate {g : Path → Path} {inside : ModuleId → Prop}
    (hinj : ∀ {a b}, inside a → inside b → a.relocate g = b.relocate g → a = b)
    {found : List (ModuleId × ImportStatement)} (hfound : ∀ s ∈ found, inside s.1) :
    importRecords (found.map (Prod.map (ModuleId.relocate g) fun statement => statement))
      = (importRecords found).mapEntries (ModuleId.relocate g) (ImportRecord.relocate g) := by
  have hfold (m : OrderedMap ModuleId ImportRecord) (hm : ∀ a ∈ m.keys, inside a) :
      (found.map (Prod.map (ModuleId.relocate g) fun statement => statement)).foldl
          (fun m s => m.update s.1 (ImportRecord.merge s.2))
          (m.mapEntries (ModuleId.relocate g) (ImportRecord.relocate g))
        = (found.foldl (fun m s => m.update s.1 (ImportRecord.merge s.2)) m).mapEntries
            (ModuleId.relocate g) (ImportRecord.relocate g) := by
    induction found generalizing m with
    | nil => rfl
    | cons s found ih =>
      obtain ⟨hs, hfound⟩ := List.forall_mem_cons.mp hfound
      have hstep := OrderedMap.mapEntries_update hinj hm hs
        (ImportRecord.merge_relocate g s.2)
      rw [List.map_cons, List.foldl_cons, List.foldl_cons]
      refine Eq.trans ?_ (ih hfound _ (OrderedMap.forall_mem_keys_update hm hs _))
      exact congrArg (List.foldl _ · _) hstep.symm
  exact hfold .empty (by simp)

/-! ## Layouts -/

namespace Layout

variable {modules modules' : OrderedMap ModuleId Leaf}

theorem path_relocate (layout : Layout) : (layout.relocate g).path = g layout.path := by
  cases layout
  rw [relocate]
  rfl

theorem allFiles_relocate : ∀ layout : Layout,
    (layout.relocate g).allFiles = layout.allFiles.map (ModuleId.relocate g)
  | mk path subdirs files => by
    rw [relocate, allFiles, allFiles, List.map_append, List.flatMap_map, List.map_flatMap]
    refine congrArg (List.flatten · ++ _) ?_
    exact List.map_congr_left fun sub _ => allFiles_relocate sub

variable {g}

theorem fileNodes_relocate {files : List ModuleId}
    (h : ∀ a ∈ files, modules'.get? (a.relocate g) = (modules.get? a).map (Leaf.relocate g)) :
    fileNodes modules' (files.map (ModuleId.relocate g))
      = (fileNodes modules files).map (Node.relocate g) := by
  rw [fileNodes, fileNodes, List.filterMap_map, List.map_filterMap]
  refine List.filterMap_congr fun a ha => ?_
  rw [Function.comp_apply, h a ha, Option.map_map, Option.map_map]
  refine congrArg (Option.map · _) (funext fun leaf => ?_)
  rw [Function.comp_apply, Function.comp_apply, Node.relocate]

/-- **The layout of the image shows the images** of the directories and of the modules. -/
theorem node_relocate : ∀ layout : Layout,
    (∀ a ∈ layout.allFiles,
      modules'.get? (a.relocate g) = (modules.get? a).map (Leaf.relocate g)) →
    (layout.relocate g).node modules' = (layout.node modules).relocate g
  | mk path subdirs files, h => by
    simp only [allFiles, List.forall_mem_append, List.forall_mem_flatMap] at h
    rw [relocate, node, node, Node.relocate, List.map_append, List.map_map, List.map_map,
      fileNodes_relocate h.2]
    refine congrArg (fun nodes => Node.directory (g path) (nodes ++ _)) ?_
    exact List.map_congr_left fun sub hsub => node_relocate sub (h.1 sub hsub)

theorem tree_relocate {layout : Layout} (h : ∀ a ∈ layout.allFiles,
    modules'.get? (a.relocate g) = (modules.get? a).map (Leaf.relocate g)) :
    (layout.relocate g).tree modules' = (layout.tree modules).relocate g := by
  have hnode := node_relocate layout h
  rw [node_eq_toNode, node_eq_toNode, Tree.toNode, Tree.toNode, Node.relocate] at hnode
  obtain ⟨hpath, hchildren⟩ := Node.directory.inj hnode
  rw [Tree.relocate, ← hpath, ← hchildren]

end Layout

/-! ## Searches -/

/-- **A search is carried along a map of vertices** that is injective on what it comes to. -/
theorem DepthFirst.map {α β : Type} {succ : α → List α} {succ' : β → List β} {f : α → β}
    {seen todo order : List α} (h : DepthFirst succ seen todo order) (inside : α → Prop)
    (hinj : ∀ a b, inside a → inside b → f a = f b → a = b) (hseen : ∀ v ∈ seen, inside v)
    (horder : ∀ v ∈ order, inside v) (hsucc : ∀ v ∈ order, succ' (f v) = (succ v).map f) :
    DepthFirst succ' (seen.map f) (todo.map f) (order.map f) := by
  induction h with
  | nil => exact .nil
  | skip hv _ ih => exact .skip (List.mem_map_of_mem hv) (ih hseen horder hsucc)
  | @enter seen todo below after v hv _ _ ihInner ihLater =>
    obtain ⟨hfirst, hafter⟩ := List.forall_mem_append.mp horder
    obtain ⟨hinside, hbelow⟩ := List.forall_mem_cons.mp hfirst
    obtain ⟨hsuccFirst, hsuccAfter⟩ := List.forall_mem_append.mp hsucc
    obtain ⟨hsuccHere, hsuccBelow⟩ := List.forall_mem_cons.mp hsuccFirst
    have hnew : f v ∉ seen.map f := fun hmem => by
      obtain ⟨w, hw, heq⟩ := List.mem_map.mp hmem
      exact hv (hinj w v (hseen w hw) hinside heq ▸ hw)
    have hinner := ihInner (List.forall_mem_append.mpr ⟨hseen, by simpa using hinside⟩) hbelow hsuccBelow
    have hlater := ihLater (List.forall_mem_append.mpr ⟨hseen, hfirst⟩) hafter hsuccAfter
    rw [List.map_append, List.map_singleton, ← hsuccHere] at hinner
    rw [List.map_append, List.map_cons] at hlater
    rw [List.map_cons, List.map_append, List.map_cons]
    exact .enter hnew hinner hlater

namespace FileSystem

variable {fs fs' : FileSystem} {config : Config} {inside : Path → Prop} {g : Path → Path}
  {id t : ModuleId} {leaf : Leaf} {modules modules' : OrderedMap ModuleId Leaf} {layout : Layout}
  {p : Path}

/-- **A disk whose builds are carried into another one** by a map of paths, as far as a part of the
disk goes: what a build finds in this part leads to paths in this part, and the other disk has the
images of it all. -/
structure CarriesTo (fs fs' : FileSystem) (config : Config) (inside : Path → Prop)
    (g : Path → Path) : Prop where
  injective : ∀ {p q}, inside p → inside q → g p = g q → p = q
  clean : ∀ {p}, inside p → p.clean = p ∧ (g p).clean = g p
  isModuleFile : ∀ {p}, inside p → (g p).isModuleFile = p.isModuleFile
  isPresent : ∀ {p}, inside p → fs'.isPresent (g p) = fs.isPresent p
  checkDir : ∀ {p}, inside p → fs.checkDir p = .ok () → fs'.checkDir (g p) = .ok ()
  analyze : ∀ {id leaf}, inside id.path → (fs.analyze config id).leaf = .ok leaf →
    (fs'.analyze config (id.relocate g)).leaf = .ok (leaf.relocate g) ∧
      ∀ t ∈ leaf.imports.keys, inside t.path
  listing : ∀ {dir l}, inside dir → fs.listing config dir = .ok l →
    fs'.listing config (g dir) = .ok (l.relocate g) ∧
      (∀ q ∈ l.subdirs, inside q) ∧ ∀ id ∈ l.files, inside id.path

namespace CarriesTo

variable (h : fs.CarriesTo fs' config inside g)
include h

/-! ## Modules -/

theorem relocate_inj {a b : ModuleId} (ha : inside a.path) (hb : inside b.path)
    (heq : a.relocate g = b.relocate g) : a = b :=
  congrArg ModuleId.mk (h.injective ha hb (ModuleId.mk.inj heq))

/-- No two modules have one image. -/
theorem relocate_injOn {ids : List ModuleId} (hids : ∀ a ∈ ids, inside a.path) :
    ∀ a ∈ ids, ∀ b ∈ ids, a.relocate g = b.relocate g → a = b := fun a ha b hb =>
  h.relocate_inj (hids a ha) (hids b hb)

theorem ofPath_eq (hp : inside p) : ModuleId.ofPath p = ⟨p⟩ ∧
    ModuleId.ofPath (g p) = (ModuleId.ofPath p).relocate g := by
  obtain ⟨hclean, hclean'⟩ := h.clean hp
  rw [ModuleId.ofPath, ModuleId.ofPath, hclean, hclean']
  exact ⟨rfl, rfl⟩

theorem keys_imports (hid : inside id.path) (hleaf : (fs.analyze config id).leaf = .ok leaf) :
    (leaf.relocate g).imports.keys = leaf.imports.keys.map (ModuleId.relocate g) := by
  obtain ⟨_, htargets⟩ := h.analyze hid hleaf
  exact OrderedMap.keys_mapEntries (h.relocate_injOn htargets)

/-- The image of a module imports the images of what the module imports. -/
theorem importsOf_eq (hid : inside id.path) (hleaf : (fs.analyze config id).leaf = .ok leaf) :
    fs'.importsOf config (id.relocate g) = (fs.importsOf config id).map (ModuleId.relocate g) := by
  rw [importsOf_of_analyze (h.analyze hid hleaf).1, importsOf_of_analyze hleaf,
    h.keys_imports hid hleaf]

theorem inside_of_mem_importsOf (hid : inside id.path) (ht : t ∈ fs.importsOf config id) :
    inside t.path := by
  obtain ⟨leaf, hleaf, ht⟩ := exists_leaf_of_mem_importsOf ht
  exact (h.analyze hid hleaf).2 t ht

theorem modulesFrom_eq (hid : inside id.path) (hleaf : (fs.analyze config id).leaf = .ok leaf) :
    fs'.modulesFrom config (id.relocate g)
      = (fs.modulesFrom config id).map (ModuleId.relocate g) := by
  rw [modulesFrom, modulesFrom, h.importsOf_eq hid hleaf, List.filter_map]
  refine congrArg (List.map _) (List.filter_congr fun t ht => ?_)
  exact h.isModuleFile (h.inside_of_mem_importsOf hid ht)

theorem inside_of_mem_modulesFrom (hid : inside id.path) (ht : t ∈ fs.modulesFrom config id) :
    inside t.path := h.inside_of_mem_importsOf hid (mem_modulesFrom.mp ht).1

/-! ## Links -/

section Links

variable {known : List ModuleId} (hknown : ∀ a ∈ known, inside a.path)
include hknown

theorem mem_map_relocate (ht : inside t.path) :
    t.relocate g ∈ known.map (ModuleId.relocate g) ↔ t ∈ known := by
  refine ⟨fun hmem => ?_, List.mem_map_of_mem⟩
  obtain ⟨a, ha, heq⟩ := List.mem_map.mp hmem
  exact h.relocate_inj (hknown a ha) ht heq ▸ ha

section Analyzed

variable (hall : ∀ a ∈ known, ∃ leaf, (fs.analyze config a).leaf = .ok leaf)
include hall

theorem linkRecord_eq (hid : inside id.path) (ht : inside t.path) (record : ImportRecord) :
    fs'.linkRecord config (known.map (ModuleId.relocate g)) ⟨id.relocate g, t.relocate g⟩
      (record.relocate g) = (fs.linkRecord config known ⟨id, t⟩ record).relocate g := by
  have hmutual : t ∈ known ∧ id.relocate g ∈ fs'.importsOf config (t.relocate g) ↔
      t ∈ known ∧ id ∈ fs.importsOf config t := by
    refine and_congr_right fun hmem => ?_
    obtain ⟨other, hother⟩ := hall t hmem
    rw [h.importsOf_eq ht hother]
    exact h.mem_map_relocate (fun b hb => h.inside_of_mem_importsOf ht hb) hid
  simp only [linkRecord, ImportRecord.relocate, h.mem_map_relocate hknown ht, hmutual]
  split <;> rfl

/-- **Linking is carried along**, if all modules that are linked are. -/
theorem linkLeaf_eq (hid : id ∈ known) (hleaf : (fs.analyze config id).leaf = .ok leaf) :
    fs'.linkLeaf config (known.map (ModuleId.relocate g)) (leaf.relocate g)
      = (fs.linkLeaf config known leaf).relocate g := by
  have hinside := hknown id hid
  obtain ⟨_, htargets⟩ := h.analyze hinside hleaf
  have hinj := h.relocate_injOn htargets
  have himports : (leaf.relocate g).imports.mapValues
        (fun b => fs'.linkRecord config (known.map (ModuleId.relocate g)) ⟨id.relocate g, b⟩)
      = (leaf.imports.mapValues fun b => fs.linkRecord config known ⟨id, b⟩).mapEntries
          (ModuleId.relocate g) (ImportRecord.relocate g) := by
    refine OrderedMap.ext ?_
    rw [OrderedMap.entries_mapEntries (by rwa [OrderedMap.keys_mapValues])]
    change List.map _ (leaf.imports.mapEntries _ _).entries = List.map _ (List.map _ _)
    rw [OrderedMap.entries_mapEntries hinj, List.map_map, List.map_map]
    refine List.map_congr_left fun e he => ?_
    exact congrArg (Prod.mk _)
      (h.linkRecord_eq hknown hall hinside (htargets e.1 (List.mem_map_of_mem he)) e.2)
  have hid' : (leaf.relocate g).id = id.relocate g :=
    congrArg (ModuleId.relocate g) (id_of_analyze hleaf)
  rw [linkLeaf, linkLeaf, hid', himports, id_of_analyze hleaf]
  rfl

end Analyzed

end Links

/-- **The modules of two finished builds correspond** if their keys do. -/
theorem modules_eq (hassembled : fs.Assembled config modules)
    (hassembled' : fs'.Assembled config modules') (hinside : ∀ a ∈ modules.keys, inside a.path)
    (hkeys : modules'.keys = modules.keys.map (ModuleId.relocate g)) :
    modules' = relocateModules g modules := by
  have hinj := h.relocate_injOn hinside
  refine OrderedMap.ext_get? (hkeys.trans (OrderedMap.keys_mapEntries hinj).symm) fun id' hid' => ?_
  obtain ⟨id, hid, rfl⟩ := List.mem_map.mp (hkeys ▸ hid')
  obtain ⟨leaf, hleaf, hget⟩ := hassembled id hid
  obtain ⟨leaf', hleaf', hget'⟩ := hassembled' _ hid'
  obtain rfl := Except.ok.inj ((h.analyze (hinside id hid) hleaf).1.symm.trans hleaf')
  rw [hget', hkeys, h.linkLeaf_eq hinside (fun _ ha => hassembled.exists_leaf ha) hid hleaf,
    relocateModules, OrderedMap.get?_mapEntries hinj hid, hget, Option.map_some]

/-! ## Graphs -/

/-- **A graph is carried along** to the graph of the image of its entry. -/
theorem graphFrom_eq {entry : Path} {graph : ModuleGraph} (hentry : inside entry)
    (hgraph : fs.graphFrom config entry = .ok graph) :
    fs'.graphFrom config (g entry) = .ok (graph.relocate g) := by
  obtain ⟨_, _, horder, _, _, hassembled, hroot⟩ := graphFrom_eq_ok hgraph
  obtain ⟨hpath, hpath'⟩ := h.ofPath_eq hentry
  have hinside : ∀ a ∈ graph.modules.keys, inside a.path := by
    refine horder.forall_mem (fun a ha => ?_) fun a b ha hb => h.inside_of_mem_modulesFrom ha hb
    rw [List.mem_singleton.mp ha, hpath]
    exact hentry
  have horder' : DepthFirst (fs'.modulesFrom config) [] [.ofPath (g entry)]
      (graph.modules.keys.map (ModuleId.relocate g)) := by
    rw [hpath']
    refine horder.map (fun a => inside a.path) (fun a b => h.relocate_inj) (by simp)
      hinside fun a ha => ?_
    obtain ⟨leaf, hleaf⟩ := hassembled.exists_leaf ha
    exact h.modulesFrom_eq (hinside a ha) hleaf
  rcases fs'.graphFrom_cases config (g entry) horder' with
    ⟨d, graph', hgraph', _, hsound, _, hkeys, hmodules, hroot'⟩ | ⟨e, before, id', after, _, hsplit, _, herror⟩
  · have hkeys' : graph'.modules.keys = graph.modules.keys.map (ModuleId.relocate g) := by
      rw [hmodules, Draft.keys_link, hkeys]
    have heq := h.modules_eq hassembled (hmodules ▸ assembled_link hsound) hinside hkeys'
    have hmem := OrderedMap.mem_keys_of_get? hroot
    rw [heq, hpath', relocateModules,
      OrderedMap.get?_mapEntries (h.relocate_injOn hinside) hmem, hroot] at hroot'
    rw [hgraph', ModuleGraph.relocate, ← heq, Option.some.inj hroot']
  · obtain ⟨id, hid, rfl⟩ : ∃ id ∈ graph.modules.keys, id.relocate g = id' :=
      List.mem_map.mp (hsplit ▸ by simp)
    obtain ⟨leaf, hleaf⟩ := hassembled.exists_leaf hid
    cases (h.analyze (hinside id hid) hleaf).1.symm.trans herror

/-! ## Walks -/

/-- **A chart is carried along**, and it stays in its part of the disk. -/
theorem charts (hcharts : fs.Charts config layout) (hinside : inside layout.path) :
    fs'.Charts config (layout.relocate g) ∧ (∀ a ∈ layout.allFiles, inside a.path) := by
  induction hcharts with
  | @mk path subdirs files hlisting _ ih =>
    obtain ⟨hlisting', hsubdirs, hfiles⟩ := h.listing hinside hlisting
    have hbelow (sub : Layout) (hsub : sub ∈ subdirs) :=
      ih sub hsub (hsubdirs sub.path (List.mem_map_of_mem hsub))
    have hpaths : (subdirs.map (Layout.relocate g)).map Layout.path
        = (subdirs.map Layout.path).map g := by
      rw [List.map_map, List.map_map]
      exact List.map_congr_left fun sub _ => sub.path_relocate g
    constructor
    · rw [Layout.relocate]
      refine .mk ?_ fun sub' hsub' => ?_
      · rw [hpaths]
        exact hlisting'
      · obtain ⟨sub, hsub, rfl⟩ := List.mem_map.mp hsub'
        exact (hbelow sub hsub).1
    · rw [Layout.allFiles, List.forall_mem_append, List.forall_mem_flatMap]
      exact ⟨fun sub hsub => (hbelow sub hsub).2, hfiles⟩

/-- **A walk is carried along** to the walk of the image of its directory. -/
theorem walk_eq {dir : Path} {tree : DependencyTree} (hdir : inside dir)
    (hwalk : fs.walk config dir = .ok tree) :
    fs'.walk config (g dir) = .ok (tree.relocate g) := by
  have hassembled := assembled_walk hwalk
  have hcheck := h.checkDir hdir (checkDir_of_walk hwalk)
  obtain ⟨layout, _, rfl, hcharts, _⟩ := walk_eq_ok hwalk
  obtain ⟨hroot, hkeys⟩ := hcharts.eq_of_walk hwalk
  obtain ⟨hcharts', hinside⟩ := h.charts hcharts hdir
  have hall : ∀ a ∈ layout.allFiles, ∃ leaf, (fs.analyze config a).leaf = .ok leaf := fun a ha =>
    hassembled.exists_leaf (hkeys ▸ ha)
  rw [← layout.path_relocate g] at hcheck ⊢
  obtain ⟨tree', hwalk', hkeys'⟩ := exists_walk hcharts' hcheck
    (fun a' ha' => by
      rw [layout.allFiles_relocate g] at ha'
      obtain ⟨a, ha, rfl⟩ := List.mem_map.mp ha'
      obtain ⟨leaf, hleaf⟩ := hall a ha
      exact ⟨_, (h.analyze (hinside a ha) hleaf).1⟩)
    (fun a' ha' target' htarget' => by
      rw [layout.allFiles_relocate g] at ha' ⊢
      obtain ⟨a, ha, rfl⟩ := List.mem_map.mp ha'
      obtain ⟨leaf, hleaf⟩ := hall a ha
      rw [h.modulesFrom_eq (hinside a ha) hleaf] at htarget'
      obtain ⟨target, htarget, rfl⟩ := List.mem_map.mp htarget'
      have hpresent := present_of_walk hwalk (hkeys ▸ ha) htarget
      rw [hkeys] at hpresent
      refine hpresent.imp List.mem_map_of_mem fun hpresent => ?_
      exact (h.isPresent (h.inside_of_mem_modulesFrom (hinside a ha) htarget)).trans hpresent)
  rw [layout.allFiles_relocate g, ← hkeys] at hkeys'
  rw [← hkeys] at hinside
  have heq := h.modules_eq hassembled (assembled_walk hwalk') hinside hkeys'
  have hroot' := (hcharts'.eq_of_walk hwalk').1
  rw [heq, Layout.tree_relocate fun a ha => ?_, ← hroot] at hroot'
  · rw [hwalk', DependencyTree.relocate, ← heq, ← hroot']
  · exact OrderedMap.get?_mapEntries (h.relocate_injOn hinside) (hkeys ▸ ha)

end CarriesTo

end FileSystem

end ImportAtlas
