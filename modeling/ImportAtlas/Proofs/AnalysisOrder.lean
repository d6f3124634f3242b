import ImportAtlas.Proofs.Agreement
import ImportAtlas.Proofs.Relinking

/-!
# Proofs/AnalysisOrder — modules may be analysed in any order, and more than once

A run of analyses that succeed leaves a sound draft whose modules are those of the run, however often
each of them comes (`Sound.exists_analyzeAll`).  A sound draft is determined by its modules, up to
order: so are its edges, which come once each, its leaves once they are linked, and its counts
(`Sound.sameContents_link`).
-/

namespace ImportAtlas

variable {fs : FileSystem} {config : Config} {d d' : Draft} {id : ModuleId} {ids ids' : List ModuleId}
  {leaf : Leaf} {e : Edge}

namespace Draft

/-! ## What is there already -/

theorem addEdge_eq_self (h : e ∈ d.edges) : d.addEdge e = d := if_pos (hasEdge_eq_true.mpr h)

theorem addModule_eq_self (h : leaf.id ∈ d.modules.keys) : d.addModule leaf = d := by
  have hmodules : (d.addModule leaf).modules = d.modules := by
    refine OrderedMap.ext_get? (by rw [keys_addModule, if_pos h]) fun id _ => ?_
    rw [get?_addModule]
    split
    · rename_i hid
      obtain ⟨known, hknown⟩ := OrderedMap.exists_get?_of_mem (hid ▸ h)
      rw [hknown, Option.getD_some]
    · rfl
  calc d.addModule leaf = { d with modules := (d.addModule leaf).modules } := rfl
    _ = d := by rw [hmodules]

theorem foldl_addEdge_eq_self {ts : List ModuleId} (h : ∀ t ∈ ts, ⟨id, t⟩ ∈ d.edges) :
    ts.foldl (fun d t => d.addEdge ⟨id, t⟩) d = d := by
  induction ts with
  | nil => rfl
  | cons t ts ih =>
    obtain ⟨ht, hts⟩ := List.forall_mem_cons.mp h
    rw [List.foldl_cons, addEdge_eq_self ht, ih hts]

/-- **An analysis adds nothing to a draft** that has its module and the edges of all its imports. -/
theorem addFindings_eq_self (h : (fs.analyze config id).leaf = .ok leaf) (hid : id ∈ d.modules.keys)
    (hedges : ∀ t ∈ fs.importsOf config id, ⟨id, t⟩ ∈ d.edges) :
    d.addFindings id (fs.analyze config id) = d := by
  have htargets : ∀ t ∈ (fs.analyze config id).targets, ⟨id, t⟩ ∈ d.edges := by
    intro t ht
    refine hedges t ?_
    rwa [FileSystem.importsOf_of_analyze h, ← FileSystem.mem_targets_iff h]
  rw [addFindings, foldl_addEdge_eq_self htargets, h]
  refine addModule_eq_self ?_
  rwa [FileSystem.id_of_analyze h]

/-- An analysis is repeated to no effect, whether the draft has been linked or not. -/
theorem Sound.analyze_eq_self (hd : d.Sound fs config) (hid : id ∈ d.modules.keys) :
    (d.analyze fs config id).1 = d ∧ (d.link.analyze fs config id).1 = d.link := by
  obtain ⟨leaf, _, hleaf⟩ := hd.mem_keys hid
  have hedges : ∀ t ∈ fs.importsOf config id, ⟨id, t⟩ ∈ d.edges := fun t ht =>
    hd.mem_edges.mpr ⟨hid, ht⟩
  have hlinked : id ∈ d.link.modules.keys := by rwa [keys_link]
  exact ⟨addFindings_eq_self hleaf hid hedges, addFindings_eq_self hleaf hlinked hedges⟩

/-! ## Runs with repetitions -/

theorem nodup_edges_addEdge (h : d.edges.Nodup) (e : Edge) : (d.addEdge e).edges.Nodup := by
  unfold addEdge
  split
  · exact h
  · rename_i hnew
    rw [hasEdge_eq_true] at hnew
    rw [List.nodup_append]
    refine ⟨h, by simp, fun a ha b hb hab => hnew ?_⟩
    rwa [← List.mem_singleton.mp hb, ← hab]

/-- An analysis adds no edge twice. -/
theorem nodup_edges_addFindings (h : d.edges.Nodup) (id : ModuleId) (findings : Findings) :
    (d.addFindings id findings).edges.Nodup := by
  have hfold (ts : List ModuleId) (d : Draft) (h : d.edges.Nodup) :
      (ts.foldl (fun d t => d.addEdge ⟨id, t⟩) d).edges.Nodup := by
    induction ts generalizing d with
    | nil => exact h
    | cons t ts ih => exact ih _ (nodup_edges_addEdge h _)
  unfold addFindings
  simp only
  split
  · exact hfold _ _ h
  · exact hfold _ _ h

/-- **A run of analyses that succeed** leaves a sound draft of just its modules, without an edge that
comes twice. -/
theorem Sound.exists_analyzeAll (hd : d.Sound fs config) (hnodup : d.edges.Nodup)
    (hok : ∀ id ∈ ids, ∃ leaf, (fs.analyze config id).leaf = .ok leaf) :
    ∃ d', d.analyzeAll fs config ids = .ok d' ∧ d'.Sound fs config ∧ d'.edges.Nodup ∧
      d'.visited = d.visited ∧ ∀ id, id ∈ d'.modules.keys ↔ id ∈ d.modules.keys ∨ id ∈ ids := by
  induction ids generalizing d with
  | nil => exact ⟨d, rfl, hd, hnodup, rfl, by simp⟩
  | cons id ids ih =>
    obtain ⟨⟨leaf, hleaf⟩, hok⟩ := List.forall_mem_cons.mp hok
    obtain ⟨d', hrun, hsound, hedges, hvisited, hkeys⟩ :=
      ih (hd.addFindings hleaf) (nodup_edges_addFindings hnodup id _) hok
    refine ⟨d', ?_, hsound, hedges, ?_, fun other => ?_⟩
    · rw [analyzeAll_cons, analyze_eq_ok hleaf]
      exact hrun
    · rw [hvisited, visited_addFindings]
    · rw [hkeys, mem_keys_addFindings hleaf, List.mem_cons, or_assoc]

/-! ## Drafts of the same modules -/

/-- **Drafts that say the same**, in whatever order: the same leaves under the same keys, the same
edges, each of them once, and the same visited modules. -/
structure SameContents (d d' : Draft) : Prop where
  mem_keys : ∀ id, id ∈ d.modules.keys ↔ id ∈ d'.modules.keys
  get?_eq : ∀ id, d.modules.get? id = d'.modules.get? id
  nodup_edges : d.edges.Nodup ∧ d'.edges.Nodup
  edges_perm : d.edges.Perm d'.edges
  visited_eq : d.visited = d'.visited

/-- Drafts that say the same have the same counts. -/
theorem SameContents.linkCounts_eq (h : d.SameContents d') : d.linkCounts = d'.linkCounts := by
  refine linkCounts_congr h.edges_perm (fun id => ?_) fun e => ?_
  · rw [hasModule, hasModule, OrderedMap.contains, OrderedMap.contains, h.get?_eq]
  · rw [recordOf?, recordOf?, h.get?_eq]

/-- **Sound drafts of the same modules say the same** once they are linked. -/
theorem Sound.sameContents_link (hd : d.Sound fs config) (hd' : d'.Sound fs config)
    (hkeys : ∀ id, id ∈ d.modules.keys ↔ id ∈ d'.modules.keys) (hnodup : d.edges.Nodup)
    (hnodup' : d'.edges.Nodup) (hvisited : d.visited = d'.visited) :
    d.link.SameContents d'.link where
  mem_keys id := by rw [keys_link, keys_link, hkeys]
  get?_eq id := by
    have hlink : ∀ id, id ∈ d.link.modules.keys ↔ id ∈ d'.link.modules.keys := fun id => by
      rw [keys_link, keys_link, hkeys]
    by_cases hid : id ∈ d.link.modules.keys
    · exact (FileSystem.assembled_link hd).get?_eq (FileSystem.assembled_link hd') hid
        ((hlink id).mp hid) fun b _ => hlink b
    · rw [OrderedMap.get?_eq_none_iff.mpr hid, OrderedMap.get?_eq_none_iff.mpr]
      rwa [← hlink]
  nodup_edges := ⟨hnodup, hnodup'⟩
  edges_perm := by
    refine (List.perm_ext_iff_of_nodup hnodup hnodup').mpr fun e => ?_
    rw [hd.mem_edges, hd'.mem_edges, hkeys]
  visited_eq := hvisited

/-- **The order of analyses does not matter.**  Of two lists of modules with the same members, in any
order and however often, all of them analysed with success from nothing: the two drafts have the
modules of the lists, and linked they say the same, with the same counts.  And to analyse one of the
modules once more changes neither draft. -/
theorem analyses_independent_of_order (fs : FileSystem) (config : Config) {ids ids' : List ModuleId}
    (hsame : ∀ id, id ∈ ids ↔ id ∈ ids')
    (hok : ∀ id ∈ ids, ∃ leaf, (fs.analyze config id).leaf = .ok leaf) :
    ∃ d d', empty.analyzeAll fs config ids = .ok d ∧ empty.analyzeAll fs config ids' = .ok d' ∧
      (∀ id, id ∈ d.modules.keys ↔ id ∈ ids) ∧ d.link.SameContents d'.link ∧
      d.linkCounts = d'.linkCounts ∧
      ∀ id ∈ ids, (d.analyze fs config id).1 = d ∧ (d.link.analyze fs config id).1 = d.link := by
  have hnone : ∀ id, id ∉ empty.modules.keys := by simp [empty]
  obtain ⟨d, hrun, hd, hnodup, hvisited, hkeys⟩ :=
    Sound.empty.exists_analyzeAll List.nodup_nil hok
  obtain ⟨d', hrun', hd', hnodup', hvisited', hkeys'⟩ :=
    Sound.empty.exists_analyzeAll List.nodup_nil fun id hid => hok id ((hsame id).mpr hid)
  simp only [hnone, false_or] at hkeys hkeys'
  have hsay : d.link.SameContents d'.link :=
    hd.sameContents_link hd' (fun id => by rw [hkeys, hkeys', hsame]) hnodup hnodup'
      (hvisited.trans hvisited'.symm)
  refine ⟨d, d', hrun, hrun', hkeys, hsay, ?_, fun id hid => ?_⟩
  · rw [← linkCounts_link d, hsay.linkCounts_eq, linkCounts_link]
  · exact hd.analyze_eq_self ((hkeys id).mpr hid)

/-- The twins may be analysed in either order, and one of them twice. -/
theorem analyses_independent_of_order_twins :
    let ids := [Memory.twinA, Memory.twinB, Memory.twinA]
    let ids' := [Memory.twinB, Memory.twinA]
    (∀ id, id ∈ ids ↔ id ∈ ids') ∧
      (∀ id ∈ ids, ∃ leaf, (Memory.twins.toFileSystem.analyze {} id).leaf = .ok leaf) ∧
      ∃ d d', empty.analyzeAll Memory.twins.toFileSystem {} ids = .ok d ∧
        empty.analyzeAll Memory.twins.toFileSystem {} ids' = .ok d' ∧
        d.link.modules.get? Memory.twinA = d'.link.modules.get? Memory.twinA ∧
        d.linkCounts = d'.linkCounts := by
  intro ids ids'
  have hsame : ∀ id, id ∈ ids ↔ id ∈ ids' := by
    intro id
    simp only [ids, ids', List.mem_cons, List.not_mem_nil, or_false]
    constructor
    · rintro (rfl | rfl | rfl) <;> simp
    · rintro (rfl | rfl) <;> simp
  have hok : ∀ id ∈ ids, ∃ leaf, (Memory.twins.toFileSystem.analyze {} id).leaf = .ok leaf := by
    intro id hid
    exact Memory.exists_leaf_twins id (by simpa [ids', or_comm] using (hsame id).mp hid)
  obtain ⟨d, d', hrun, hrun', _, hsay, hcounts, _⟩ :=
    analyses_independent_of_order Memory.twins.toFileSystem {} hsame hok
  exact ⟨hsame, hok, d, d', hrun, hrun', hsay.get?_eq _, hcounts⟩

end Draft

end ImportAtlas
