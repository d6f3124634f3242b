import ImportAtlas.Command.Progress
import ImportAtlas.Proofs.Ledger
import Mathlib

/-!
# Proofs/Pairing — every link that is queued has a record of its own, and every record its link

A build comes to link its modules with two lists at hand: the links of its queue, which are told apart
by the set of imports that were found, and the records in the leaves, which are told apart by their
targets.  The two lists match one to one (`Sound.isPaired`), since both are the imports of the modules
of the build.  So what is counted along the queue is what the records say in the end
(`Sound.count_linkCounts`).
-/

namespace ImportAtlas

variable {fs : FileSystem} {config : Config} {d d' : Draft} {id : ModuleId} {ids : List ModuleId}
  {modules : OrderedMap ModuleId Leaf}

/-! ## The records of some modules -/

/-- An import record in a leaf, with the import that it is the record of. -/
structure HeldRecord where
  edge : Edge
  record : ImportRecord

/-- **All import records of some modules**, leaf by leaf. -/
def heldRecords (modules : OrderedMap ModuleId Leaf) : List HeldRecord :=
  modules.entries.flatMap fun m => m.2.imports.entries.map fun r => ⟨⟨m.1, r.1⟩, r.2⟩

theorem mem_heldRecords {h : HeldRecord} : h ∈ heldRecords modules ↔
    ∃ leaf, modules.get? h.edge.importer = some leaf ∧
      leaf.importOf? h.edge.target = some h.record := by
  rw [heldRecords, List.mem_flatMap]
  constructor
  · rintro ⟨⟨id, leaf⟩, hleaf, hr⟩
    obtain ⟨⟨target, record⟩, hrecord, rfl⟩ := List.mem_map.mp hr
    exact ⟨leaf, OrderedMap.get?_eq_some_iff.mpr hleaf, OrderedMap.get?_eq_some_iff.mpr hrecord⟩
  · rintro ⟨leaf, hleaf, hrecord⟩
    exact ⟨(h.edge.importer, leaf), OrderedMap.get?_eq_some_iff.mp hleaf,
      List.mem_map.mpr ⟨(h.edge.target, h.record), OrderedMap.get?_eq_some_iff.mp hrecord, rfl⟩⟩

/-- No two records are those of one import. -/
theorem nodup_edges_heldRecords (modules : OrderedMap ModuleId Leaf) :
    ((heldRecords modules).map HeldRecord.edge).Nodup := by
  rw [heldRecords, List.map_flatMap, List.nodup_flatMap]
  constructor
  · intro m _
    rw [List.map_map]
    refine (List.Nodup.of_map Edge.target ?_)
    rw [List.map_map]
    exact m.2.imports.nodup_keys
  · refine (List.pairwise_map.mp modules.nodup_keys).imp fun {m m'} hne e he he' => hne ?_
    simp only [List.map_map, List.mem_map, Function.comp_apply] at he he'
    obtain ⟨_, _, rfl⟩ := he
    obtain ⟨_, _, heq⟩ := he'
    exact (congrArg Edge.importer heq).symm

/-- The imports that go both ways, leaf by leaf. -/
theorem countP_isMutual_heldRecords (modules : OrderedMap ModuleId Leaf) :
    (heldRecords modules).countP (·.record.isMutual)
      = (modules.values.map fun leaf => leaf.mutualReferences.length).sum := by
  rw [heldRecords, List.countP_flatMap, OrderedMap.values, List.map_map]
  refine congrArg List.sum (List.map_congr_left fun m _ => ?_)
  rw [Function.comp_apply, List.countP_map, Function.comp_apply, Leaf.mutualReferences,
    List.length_map, ← List.countP_eq_length_filter]
  rfl

/-! ## Links and records -/

/-- **The links of the queue and the records in the leaves match one to one**: a link is matched with
the record that the leaf of its importer has for its target. -/
def Ledger.IsPaired (l : Ledger) : Prop :=
  ∃ pairing : Fin l.queue.length ≃ Fin (heldRecords l.modules).length, ∀ i,
    ((heldRecords l.modules).get (pairing i)).edge = l.queue.get i ∧
      l.recordOf? (l.queue.get i) = some ((heldRecords l.modules).get (pairing i)).record

theorem Ledger.recordOf?_of_mem {l : Ledger} {h : HeldRecord} (hmem : h ∈ heldRecords l.modules) :
    l.recordOf? h.edge = some h.record := by
  obtain ⟨leaf, hleaf, hrecord⟩ := mem_heldRecords.mp hmem
  rw [recordOf?, hleaf, Option.bind_some, hrecord]

/-- Links and records match if no link is queued twice and the same imports have links and records. -/
theorem Ledger.isPaired_of_mem {l : Ledger} (hnodup : l.queue.Nodup)
    (hmem : ∀ e, e ∈ l.queue ↔ e ∈ (heldRecords l.modules).map HeldRecord.edge) : l.IsPaired := by
  have hplaces := nodup_edges_heldRecords l.modules
  have hlength : ((heldRecords l.modules).map HeldRecord.edge).length
      = (heldRecords l.modules).length := List.length_map ..
  let pairing := ((hnodup.getEquiv l.queue).trans (Equiv.subtypeEquivRight hmem)).trans
    ((hplaces.getEquiv _).symm.trans (finCongr hlength))
  have hedge (i : Fin l.queue.length) :
      ((heldRecords l.modules).get (pairing i)).edge = l.queue.get i := by
    have hget := congrArg Subtype.val ((hplaces.getEquiv _).apply_symm_apply
      ((Equiv.subtypeEquivRight hmem) (hnodup.getEquiv l.queue i)))
    rw [List.Nodup.getEquiv_apply_coe, List.get_eq_getElem, List.getElem_map] at hget
    exact hget
  refine ⟨pairing, fun i => ⟨hedge i, ?_⟩⟩
  rw [← hedge i]
  exact recordOf?_of_mem (List.get_mem ..)

namespace Draft

/-- The imports of a sound draft are those that its leaves have records for. -/
theorem Sound.mem_edges_iff (hd : d.Sound fs config) (e : Edge) :
    e ∈ d.edges ↔ e ∈ (heldRecords d.modules).map HeldRecord.edge := by
  rw [List.mem_map]
  constructor
  · intro he
    obtain ⟨leaf, record, hleaf, hrecord, _⟩ := hd.exists_record he
    obtain ⟨known, hget, hknown⟩ := hd.mem_keys (hd.mem_edges.mp he).1
    obtain rfl : leaf = known := Except.ok.inj (hleaf.symm.trans hknown)
    exact ⟨⟨e, record⟩, mem_heldRecords.mpr ⟨leaf, hget, hrecord⟩, rfl⟩
  · rintro ⟨h, hmem, rfl⟩
    obtain ⟨leaf, hleaf, hrecord⟩ := mem_heldRecords.mp hmem
    refine hd.mem_edges.mpr ⟨OrderedMap.mem_keys_of_get? hleaf, ?_⟩
    rw [FileSystem.importsOf_of_analyze (hd.analyzed hleaf)]
    exact OrderedMap.mem_keys_of_get? hrecord

theorem Sound.isPaired (hd : d.Sound fs config) (hnodup : d.edges.Nodup) :
    d.toLedger.IsPaired :=
  Ledger.isPaired_of_mem hnodup hd.mem_edges_iff

/-! ## Counts -/

/-- **Counts that are those of the records of some modules**: each record is linked or not, and those
that go both ways are what the leaves list as such. -/
structure LinkCounts.Count (counts : LinkCounts) (modules : OrderedMap ModuleId Leaf) : Prop where
  total : counts.linked + counts.unlinked = (heldRecords modules).length
  linked : counts.linked = (heldRecords modules).countP (·.record.isLinked)
  bothWays : counts.bothWays = (modules.values.map fun leaf => leaf.mutualReferences.length).sum

/-- Linking writes into the records and leaves them where they are. -/
theorem heldRecords_link (d : Draft) : heldRecords d.link.modules
    = (heldRecords d.modules).map fun h => ⟨h.edge, d.linkRecord h.edge h.record⟩ := by
  simp only [heldRecords, link, OrderedMap.mapValues, List.flatMap_map, List.map_flatMap,
    List.map_map, Function.comp_def]

/-- What holds of some of the linked records is counted along the imports. -/
theorem Sound.countP_heldRecords_link (hd : d.Sound fs config) (hnodup : d.edges.Nodup)
    {p : ImportRecord → Bool} {q : Edge → Bool} (h : ∀ e record, p (d.drawLink e record) = q e) :
    (heldRecords d.link.modules).countP (fun r => p r.record) = d.edges.countP q := by
  have hperm : ((heldRecords d.modules).map HeldRecord.edge).Perm d.edges :=
    (List.perm_ext_iff_of_nodup (nodup_edges_heldRecords _) hnodup).mpr fun e =>
      (hd.mem_edges_iff e).symm
  rw [heldRecords_link, List.countP_map, ← hperm.countP_eq, List.countP_map]
  refine List.countP_congr fun r hr => ?_
  have hedge : r.edge ∈ d.edges := (hd.mem_edges_iff _).mpr (List.mem_map_of_mem hr)
  rw [Function.comp_apply, Function.comp_apply, linkRecord_of_mem hedge, h]

/-- **What is counted along the imports of a sound draft is what its records say** once they are
linked. -/
theorem Sound.count_linkCounts (hd : d.Sound fs config) (hnodup : d.edges.Nodup) :
    d.linkCounts.Count d.link.modules := by
  have hrecorded : d.edges.filter (fun e => (d.recordOf? e).isSome) = d.edges := by
    refine List.filter_eq_self.mpr fun e he => ?_
    obtain ⟨_, _, _, _, hrecord⟩ := hd.exists_record he
    rw [hrecord, Option.isSome_some]
  have hlength : (heldRecords d.link.modules).length = d.edges.length := by
    have hall := hd.countP_heldRecords_link hnodup (p := fun _ => true) (q := fun _ => true)
      fun _ _ => rfl
    rwa [List.countP_true, List.countP_true] at hall
  simp only [linkCounts, hrecorded]
  refine ⟨?_, ?_, ?_⟩
  · rw [hlength, List.length_eq_countP_add_countP fun e : Edge => d.hasModule e.target]
    simp only [Bool.not_eq_true, Bool.decide_eq_false]
  · refine (hd.countP_heldRecords_link hnodup fun e record => ?_).symm
    rw [ImportRecord.isLinked, drawLink]
    split <;> simp_all
  · rw [← countP_isMutual_heldRecords]
    exact (hd.countP_heldRecords_link hnodup fun _ _ => rfl).symm

/-! ## Builds -/

/-- A run that succeeds is a run of operations. -/
theorem analyzeEach_eq_run {mark : Draft → ModuleId → Draft} {ops : ModuleId → List Operation}
    (hops : ∀ d id, Operation.run (ops id) d = ((mark d id).analyze fs config id).1)
    (h : d.analyzeEach fs config mark ids = (d', none)) : Operation.run (ids.flatMap ops) d = d' := by
  induction ids generalizing d with
  | nil => exact congrArg Prod.fst h
  | cons id ids ih =>
    rw [analyzeEach_cons] at h
    have hsplit : Operation.run ((id :: ids).flatMap ops) d
        = Operation.run (ids.flatMap ops) (Operation.run (ops id) d) := by
      rw [List.flatMap_cons, Operation.run, List.foldl_append]
      rfl
    rw [hsplit, hops]
    cases hanalyze : (mark d id).analyze fs config id with
    | mk next found =>
      rw [hanalyze] at h
      cases found with
      | error e => cases congrArg Prod.snd h
      | ok targets => exact ih h

end Draft

/-- **A ledger that a build links**: its links and records match, its modules become those of the
build, and the counts that linking comes to are those of the records. -/
structure Ledger.LinksInto (l : Ledger) (modules : OrderedMap ModuleId Leaf) : Prop where
  isPaired : l.IsPaired
  modules_eq : l.linkAll.1.modules = modules
  count : l.linkAll.2.Count modules

namespace Draft

/-- The ledger of a sound draft is linked without a link or a record left over. -/
theorem Sound.linksInto (hd : d.Sound fs config) (hcoherent : d.toLedger.IsCoherent) :
    d.toLedger.LinksInto d.link.modules where
  isPaired := hd.isPaired hcoherent.nodup_queue
  modules_eq := by
    rw [Ledger.linkAll_toLedger]
    rfl
  count := by
    rw [Ledger.linkAll_toLedger]
    exact hd.count_linkCounts hcoherent.nodup_queue

end Draft

namespace FileSystem

variable {dir entry : Path} {t : DependencyTree} {g : ModuleGraph}

theorem isCoherent_of_after {ops : List Draft.Operation} (h : Ledger.after ops = d.toLedger) :
    d.toLedger.IsCoherent :=
  h ▸ (Ledger.steps_foldl_apply ops .empty).isCoherent Ledger.isCoherent_empty

/-- What a walk does before it links its modules: it analyses them, one after the other. -/
theorem exists_draft_of_walk (h : fs.walk config dir = .ok t) :
    ∃ d, Draft.empty.analyzeAll fs config (fs.survey config dir).files = .ok d ∧
      d.Sound fs config ∧ t.modules = d.link.modules ∧
      Ledger.after ((fs.survey config dir).files.flatMap fun id => [.analyze fs config id])
        = d.toLedger := by
  obtain ⟨_, _, h⟩ := exists_ok_of_bind h
  obtain ⟨d, hrun, h⟩ := exists_ok_of_bind h
  obtain ⟨layout, hlayout, h⟩ := exists_ok_of_bind h
  obtain ⟨_, hcharts, hfiles⟩ := charts_of_survey (eq_ok_of_mapError hlayout)
  refine ⟨d, hrun, ?_⟩
  rw [Draft.analyzeAll_eq] at hrun
  cases heach : Draft.empty.analyzeEach fs config (fun d _ => d) (fs.survey config dir).files with
  | mk d' failure =>
    cases failure with
    | some e => simp [heach] at hrun
    | none =>
      obtain rfl : d' = d := by simpa [heach] using hrun
      obtain ⟨hsound, _⟩ := Draft.sound_of_run (fun _ _ => rfl) (fun hd => hd)
        (hfiles ▸ hcharts.nodup_allFiles) heach
      refine ⟨hsound, ?_, ?_⟩
      · split at h
        · nomatch h
        · exact congrArg DependencyTree.modules (Except.ok.inj h).symm
      · rw [Ledger.after_eq_toLedger, Draft.analyzeEach_eq_run (fun _ _ => rfl) heach]

/-- What an exploration does before it links its modules: it marks and analyses them, one after the
other. -/
theorem exists_draft_of_graphFrom (h : fs.graphFrom config entry = .ok g) :
    ∃ d, fs.explore config [.ofPath entry] .empty = (d, none) ∧
      d.Sound fs config ∧ g.modules = d.link.modules ∧
      Ledger.after (g.modules.keys.flatMap fun id => [.visit id, .analyze fs config id])
        = d.toLedger := by
  obtain ⟨d, hexplore, hpreorder, _, hmodules, _⟩ := graphFrom_eq_ok h
  have heach := (explore_of_preorder (ofPath_path_ofPath entry) hpreorder).symm.trans hexplore
  obtain ⟨hsound, _⟩ :=
    Draft.sound_of_run Draft.modules_visit (fun hd => hd.visit _) hpreorder.nodup heach
  refine ⟨d, hexplore, hsound, hmodules, ?_⟩
  rw [Ledger.after_eq_toLedger, Draft.analyzeEach_eq_run (fun _ _ => rfl) heach]

/-- **When a build comes to link its modules, links and records match one to one**, whether it walks a
directory or follows imports.  So linking counts each record of the result once, as linked or not,
and the imports that go both ways are as many as a command reports for a graph. -/
theorem links_match_records (fs : FileSystem) (config : Config) :
    (∀ {dir t}, fs.dependencyTree config dir = .ok t →
      ∃ top d, fs.absolute dir = .ok top ∧
        Draft.empty.analyzeAll fs config (fs.survey config top).files = .ok d ∧
        Ledger.after ((fs.survey config top).files.flatMap fun id => [.analyze fs config id])
          = d.toLedger ∧
        d.toLedger.LinksInto t.modules) ∧
    ∀ {entry g}, fs.moduleGraph config entry = .ok g →
      ∃ top d, fs.absolute entry = .ok top ∧
        fs.explore config [.ofPath top] .empty = (d, none) ∧
        Ledger.after (g.modules.keys.flatMap fun id => [.visit id, .analyze fs config id])
          = d.toLedger ∧
        d.toLedger.LinksInto g.modules ∧
        let bothWays := d.toLedger.linkAll.2.bothWays
        ∃ message ∈ graphMessages g, message.text =
          s!"Reached {g.modules.size} module(s) from {g.root.id} ({bothWays} mutual edge(s))" := by
  refine ⟨fun {dir t} h => ?_, fun {entry g} h => ?_⟩
  · obtain ⟨top, htop, hwalk⟩ := walk_of_dependencyTree h
    obtain ⟨d, hrun, hsound, hmodules, hafter⟩ := exists_draft_of_walk hwalk
    exact ⟨top, d, htop, hrun, hafter, hmodules ▸ hsound.linksInto (isCoherent_of_after hafter)⟩
  · obtain ⟨top, htop, hgraph⟩ := graphFrom_of_moduleGraph h
    obtain ⟨d, hexplore, hsound, hmodules, hafter⟩ := exists_draft_of_graphFrom hgraph
    have hlinks : d.toLedger.LinksInto g.modules :=
      hmodules ▸ hsound.linksInto (isCoherent_of_after hafter)
    refine ⟨top, d, htop, hexplore, hafter, hlinks, _, List.mem_of_getLast? rfl, ?_⟩
    simp only [hlinks.count.bothWays, List.length_flatMap]
    rfl

/-- The twins have a record each: both are linked, and both go both ways. -/
theorem links_match_records_twins :
    (∃ t l, Memory.twins.toFileSystem.dependencyTree {} ⟨"/"⟩ = .ok t ∧
      Ledger.LinksInto l t.modules ∧ l.linkAll.2 = ⟨2, 0, 2⟩) ∧
    ∃ g l, Memory.twins.toFileSystem.moduleGraph {} ⟨"/a.ts"⟩ = .ok g ∧
      Ledger.LinksInto l g.modules := by
  obtain ⟨htrees, hgraphs⟩ := links_match_records Memory.twins.toFileSystem {}
  have hroot : Memory.twins.toFileSystem.absolute ⟨"/"⟩ = .ok ⟨"/"⟩ := by decide +kernel
  have hentry : Memory.twins.toFileSystem.absolute ⟨"/a.ts"⟩ = .ok Memory.twinA.path := by
    decide +kernel
  have hid : ModuleId.ofPath Memory.twinA.path = Memory.twinA := by decide +kernel
  constructor
  · obtain ⟨t, ht, _⟩ := Memory.tree_twins
    obtain ⟨top, d, htop, _, hafter, hlinks⟩ := htrees ht
    obtain rfl : (⟨"/"⟩ : Path) = top := Except.ok.inj (hroot.symm.trans htop)
    refine ⟨t, d.toLedger, ht, hlinks, ?_⟩
    rw [← hafter, Ledger.after_eq_toLedger, Ledger.linkAll_toLedger,
      survey_of_listing Memory.listing_twins]
    decide +kernel
  · obtain ⟨g, hg⟩ : ∃ g, Memory.twins.toFileSystem.graphFrom {} Memory.twinA.path = .ok g :=
      Memory.isSelfContained_twins.exists_graph (by simp [hid])
    rw [← moduleGraph_of_absolute hentry] at hg
    obtain ⟨_, d, _, _, _, hlinks, _⟩ := hgraphs hg
    exact ⟨g, d.toLedger, hg, hlinks⟩

end FileSystem

end ImportAtlas
