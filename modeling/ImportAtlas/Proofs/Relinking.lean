import ImportAtlas.Exploration
import ImportAtlas.Proofs.Draft

/-!
# Proofs/Relinking — a draft may be linked at any time, and in any order

Linking reads the edges and the keys of a draft, and writes nothing but links.  So it may go through
the edges one by one in any order (`linkQueue_eq`), and whatever is done to a draft afterwards, the
last linking comes to the same end as if there had been no other before (`ignoresLinks_run`).
-/

namespace ImportAtlas

variable {d d' : Draft} {e : Edge} {es more : List Edge} {id : ModuleId} {leaf : Leaf}

namespace Draft

/-! ## What linking reads and writes -/

/-- The leaf of a module of the draft with its imports linked. -/
def linkImports (d : Draft) (id : ModuleId) (leaf : Leaf) : Leaf :=
  { leaf with imports := leaf.imports.mapValues fun target => d.linkRecord ⟨id, target⟩ }

@[simp] theorem edges_link (d : Draft) : d.link.edges = d.edges := rfl

@[simp] theorem visited_link (d : Draft) : d.link.visited = d.visited := rfl

@[simp] theorem hasEdge_link (d : Draft) (e : Edge) : d.link.hasEdge e = d.hasEdge e := rfl

@[simp] theorem get?_modules_link (d : Draft) (id : ModuleId) :
    d.link.modules.get? id = (d.modules.get? id).map (d.linkImports id) :=
  OrderedMap.get?_mapValues ..

theorem hasModule_eq_of_keys (h : d.modules.keys = d'.modules.keys) (id : ModuleId) :
    d.hasModule id = d'.hasModule id := by
  rw [Bool.eq_iff_iff, hasModule, hasModule, OrderedMap.contains_eq_true,
    OrderedMap.contains_eq_true, h]

@[simp] theorem hasModule_link (d : Draft) (id : ModuleId) :
    d.link.hasModule id = d.hasModule id := hasModule_eq_of_keys (keys_link d) id

theorem hasEdge_eq_of_perm (h : d.edges.Perm d'.edges) (e : Edge) :
    d.hasEdge e = d'.hasEdge e := by
  rw [Bool.eq_iff_iff, hasEdge_eq_true, hasEdge_eq_true, h.mem_iff]

/-- A record that is not the one of an edge is left as it is. -/
theorem linkRecord_of_notMem (h : e ∉ d.edges) (record : ImportRecord) :
    d.linkRecord e record = record := if_neg (mt hasEdge_eq_true.mp h)

/-- Linking reads nothing but the edges and the keys. -/
theorem linkRecord_congr (hedge : ∀ e, d.hasEdge e = d'.hasEdge e)
    (hmodule : ∀ id, d.hasModule id = d'.hasModule id) : d.linkRecord = d'.linkRecord := by
  funext e record
  simp only [linkRecord, hedge, hmodule]

theorem linkImports_congr (hedge : ∀ e, d.hasEdge e = d'.hasEdge e)
    (hmodule : ∀ id, d.hasModule id = d'.hasModule id) : d.linkImports = d'.linkImports := by
  funext id leaf
  rw [linkImports, linkImports, linkRecord_congr hedge hmodule]

/-- A link that was drawn when there were fewer edges is drawn anew. -/
theorem linkRecord_linkRecord (h : ∀ e ∈ d.edges, e ∈ d'.edges) (e : Edge)
    (record : ImportRecord) : d'.linkRecord e (d.linkRecord e record) = d'.linkRecord e record := by
  by_cases hedge : e ∈ d'.edges
  · have hedge : d'.hasEdge e = true := hasEdge_eq_true.mpr hedge
    unfold linkRecord
    rw [if_pos hedge, if_pos hedge]
    split <;> rfl
  · rw [linkRecord_of_notMem fun hold => hedge (h e hold)]

theorem linkImports_linkImports (h : ∀ e ∈ d.edges, e ∈ d'.edges)
    (id : ModuleId) (leaf : Leaf) :
    d'.linkImports id (d.linkImports id leaf) = d'.linkImports id leaf := by
  simp only [linkImports, OrderedMap.mapValues_mapValues, linkRecord_linkRecord h]

/-- **Two drafts become one by linking** if they have the same edges and keys, and their leaves differ
in links at most. -/
theorem link_eq_link (hedges : d.edges = d'.edges) (hvisited : d.visited = d'.visited)
    (hkeys : d.modules.keys = d'.modules.keys)
    (hget : ∀ id, (d.modules.get? id).map (d.linkImports id)
      = (d'.modules.get? id).map (d.linkImports id)) : d.link = d'.link := by
  have himports : d.linkImports = d'.linkImports :=
    linkImports_congr (hasEdge_eq_of_perm (.of_eq hedges)) (hasModule_eq_of_keys hkeys)
  have hmodules : d.link.modules = d'.link.modules := by
    refine OrderedMap.ext_get? (by rw [keys_link, keys_link, hkeys]) fun id _ => ?_
    rw [get?_modules_link, get?_modules_link, hget, himports]
  calc d.link = ⟨d.link.modules, d.edges, d.visited⟩ := rfl
    _ = ⟨d'.link.modules, d'.edges, d'.visited⟩ := by rw [hmodules, hedges, hvisited]

theorem map_linkImports (h : ∀ e ∈ d.edges, e ∈ d'.edges) (id : ModuleId)
    (known : Option Leaf) :
    (known.map (d.linkImports id)).map (d'.linkImports id) = known.map (d'.linkImports id) := by
  rw [Option.map_map]
  exact congrArg (Option.map · known) (funext (linkImports_linkImports h id))

/-- **A second linking changes nothing.** -/
theorem link_link (d : Draft) : d.link.link = d.link := by
  have hmono : ∀ e ∈ d.edges, e ∈ d.link.edges := fun _ he => he
  refine link_eq_link rfl rfl (keys_link d) fun id => ?_
  rw [get?_modules_link, map_linkImports hmono]

/-! ## Changes that do not read links -/

/-- **A change that comes to the same end** whether the draft is linked before it or not, as long as
it is linked behind it. -/
def IgnoresLinks (f : Draft → Draft) : Prop := ∀ d, (f d.link).link = (f d).link

theorem IgnoresLinks.comp {f g : Draft → Draft} (hg : IgnoresLinks g) (hf : IgnoresLinks f) :
    IgnoresLinks fun d => g (f d) := by
  intro d
  calc (g (f d.link)).link = (g (f d.link).link).link := (hg _).symm
    _ = (g (f d).link).link := by rw [hf d]
    _ = (g (f d)).link := hg _

theorem IgnoresLinks.foldl {α : Type} {step : Draft → α → Draft}
    (h : ∀ a, IgnoresLinks fun d => step d a) (as : List α) :
    IgnoresLinks fun d => as.foldl step d := by
  induction as with
  | nil => exact link_link
  | cons a as ih => exact ih.comp (h a)

theorem ignoresLinks_link : IgnoresLinks link := fun d => by rw [link_link]

theorem ignoresLinks_addEdge (e : Edge) : IgnoresLinks fun d => d.addEdge e := by
  intro d
  have hedges : (d.link.addEdge e).edges = (d.addEdge e).edges := by
    rw [addEdge, addEdge, hasEdge_link]
    split <;> rfl
  have hmono : ∀ e' ∈ d.edges, e' ∈ (d.link.addEdge e).edges := fun e' he' =>
    mem_edges_addEdge.mpr (Or.inl he')
  refine link_eq_link hedges ?_ ?_ fun id => ?_
  · rw [visited_addEdge, visited_addEdge, visited_link]
  · rw [modules_addEdge, modules_addEdge, keys_link]
  · rw [modules_addEdge, modules_addEdge, get?_modules_link, map_linkImports hmono]

theorem ignoresLinks_addModule (leaf : Leaf) : IgnoresLinks fun d => d.addModule leaf := by
  intro d
  refine link_eq_link rfl rfl ?_ fun id => ?_
  · rw [keys_addModule, keys_addModule, keys_link]
  · have hmono : ∀ e ∈ d.edges, e ∈ (d.link.addModule leaf).edges := fun e he => he
    rw [get?_addModule, get?_addModule, get?_modules_link]
    split
    · -- A module that the draft has keeps its leaf; a new one comes with the links that it has.
      cases d.modules.get? id with
      | none => rfl
      | some known =>
        exact congrArg some (linkImports_linkImports hmono id known)
    · rw [map_linkImports hmono]

theorem ignoresLinks_visit (id : ModuleId) : IgnoresLinks fun d => d.visit id := by
  intro d
  have hvisited : d.link.isVisited id = d.isVisited id := rfl
  simp only [visit, hvisited]
  split
  · exact link_link d
  · refine link_eq_link rfl rfl (keys_link d) fun other => ?_
    rw [get?_modules_link]
    refine map_linkImports ?_ other _
    exact fun _ he => he

/-- An analysis adds edges and possibly a module. -/
theorem ignoresLinks_addFindings (id : ModuleId) (findings : Findings) :
    IgnoresLinks fun d => d.addFindings id findings := by
  have hedges : IgnoresLinks fun d =>
      findings.targets.foldl (fun d target => d.addEdge ⟨id, target⟩) d :=
    .foldl (fun target => ignoresLinks_addEdge ⟨id, target⟩) findings.targets
  unfold addFindings
  cases findings.leaf with
  | ok leaf => exact (ignoresLinks_addModule leaf).comp hedges
  | error e => exact hedges

/-- What may be done to a draft.  An analysis may find another disk each time. -/
inductive Operation
  | analyze (fs : FileSystem) (config : Config) (id : ModuleId)
  | addModule (leaf : Leaf)
  | addEdge (e : Edge)
  | visit (id : ModuleId)
  | link

namespace Operation

/-- Whether the operation is to link the draft. -/
def isLink : Operation → Bool
  | link => true
  | _ => false

/-- The draft after one operation. -/
def apply : Operation → Draft → Draft
  | analyze fs config id, d => (d.analyze fs config id).1
  | addModule leaf, d => d.addModule leaf
  | addEdge e, d => d.addEdge e
  | visit id, d => d.visit id
  | link, d => d.link

/-- The draft after some operations. -/
def run (ops : List Operation) (d : Draft) : Draft := ops.foldl (fun d op => op.apply d) d

/-- **No operation reads links.** -/
theorem ignoresLinks_apply : ∀ op : Operation, IgnoresLinks fun d => op.apply d
  | analyze fs config id => ignoresLinks_addFindings id (fs.analyze config id)
  | addModule leaf => ignoresLinks_addModule leaf
  | addEdge e => ignoresLinks_addEdge e
  | visit id => ignoresLinks_visit id
  | link => ignoresLinks_link

/-- **No run of operations reads links.** -/
theorem ignoresLinks_run (ops : List Operation) : IgnoresLinks (run ops) :=
  .foldl ignoresLinks_apply ops

/-- **All linkings but the last may be left out.** -/
theorem link_run_filter (ops : List Operation) (d : Draft) :
    (run ops d).link = (run (ops.filter (!·.isLink)) d).link := by
  induction ops generalizing d with
  | nil => rfl
  | cons op ops ih =>
    cases op with
    | link => exact (ignoresLinks_run ops d).trans (ih d)
    | analyze fs config id => exact ih _
    | addModule leaf => exact ih _
    | addEdge e => exact ih _
    | visit id => exact ih _

theorem run_append_link (ops : List Operation) (d : Draft) :
    run (ops ++ [link]) d = (run ops d).link := by
  rw [run, List.foldl_append]
  rfl

end Operation

/-! ## Counts -/

theorem recordOf?_link (d : Draft) (e : Edge) :
    d.link.recordOf? e = (d.recordOf? e).map (d.linkRecord e) := by
  rw [recordOf?, recordOf?, get?_modules_link]
  cases d.modules.get? e.importer with
  | none => rfl
  | some leaf => exact OrderedMap.get?_mapValues ..

/-- Counts depend on which edges there are, whatever their order, which modules, and which records. -/
theorem linkCounts_congr (hedges : d.edges.Perm d'.edges)
    (hmodule : ∀ id, d.hasModule id = d'.hasModule id)
    (hrecord : ∀ e, (d.recordOf? e).isSome = (d'.recordOf? e).isSome) :
    d.linkCounts = d'.linkCounts := by
  have hedge : ∀ e, d.hasEdge e = d'.hasEdge e := hasEdge_eq_of_perm hedges
  have hrecorded := hedges.filter fun e => (d'.recordOf? e).isSome
  simp only [linkCounts, hrecord, hmodule, hedge, hrecorded.countP_eq]

theorem linkCounts_link (d : Draft) : d.link.linkCounts = d.linkCounts := by
  refine linkCounts_congr (.refl _) (hasModule_link d) fun e => ?_
  rw [recordOf?_link, Option.isSome_map]

theorem linkCounts_eq_of_link_eq (h : d.link = d'.link) : d.linkCounts = d'.linkCounts := by
  rw [← linkCounts_link d, h, linkCounts_link]

/-! ## Edge by edge

Linking may also go through a queue of edges, each time with the record of one edge.  What it reads
is not what it writes, so that the queue may be in any order. -/

/-- The record with the link of an import, whether the import is in the draft or not. -/
def drawLink (d : Draft) (e : Edge) (record : ImportRecord) : ImportRecord :=
  { record with
    isMutual := d.hasEdge e.flip
    resolved := if d.hasModule e.target then some e.target else none }

/-- The leaf with the record of one import linked. -/
def linkLeafEdge (d : Draft) (e : Edge) (leaf : Leaf) : Leaf :=
  { leaf with imports := leaf.imports.modify e.target (d.drawLink e) }

/-- The draft with the record of one import linked, if there is one. -/
def linkEdge (d : Draft) (e : Edge) : Draft :=
  { d with modules := d.modules.modify e.importer (d.linkLeafEdge e) }

/-- The counts with one more import. -/
def LinkCounts.add (counts : LinkCounts) (isKnown isMutual : Bool) : LinkCounts :=
  ⟨counts.linked + isKnown.toNat, counts.unlinked + (!isKnown).toNat,
    counts.bothWays + isMutual.toNat⟩

/-- The draft and the counts after one more import; one without a record is passed over. -/
def linkNext (state : Draft × LinkCounts) (e : Edge) : Draft × LinkCounts :=
  (state.1.linkEdge e,
    if (state.1.recordOf? e).isSome then
      state.2.add (state.1.hasModule e.target) (state.1.hasEdge e.flip)
    else state.2)

/-- **The draft and the counts after a queue of imports**, linked one by one. -/
def linkQueue (d : Draft) (queue : List Edge) : Draft × LinkCounts :=
  queue.foldl linkNext (d, ⟨0, 0, 0⟩)

/-- The record of an import, linked if the import is one of some. -/
def linkRecordAmong (d : Draft) (es : List Edge) (e : Edge) (record : ImportRecord) :
    ImportRecord :=
  if e ∈ es then d.linkRecord e record else record

/-- The leaf of a module with some of its imports linked. -/
def linkLeafAmong (d : Draft) (es : List Edge) (id : ModuleId) (leaf : Leaf) : Leaf :=
  { leaf with
    imports := leaf.imports.mapValues fun target => d.linkRecordAmong es ⟨id, target⟩ }

/-- The draft with some of its imports linked. -/
def linkSome (d : Draft) (es : List Edge) : Draft :=
  { d with modules := d.modules.mapValues (d.linkLeafAmong es) }

/-- The counts of some imports. -/
def countsOf (d : Draft) (es : List Edge) : LinkCounts :=
  let recorded := es.filter fun e => (d.recordOf? e).isSome
  ⟨recorded.countP fun e => d.hasModule e.target,
    recorded.countP fun e => !d.hasModule e.target,
    recorded.countP fun e => d.hasEdge e.flip⟩

theorem linkRecord_of_mem (h : e ∈ d.edges) : d.linkRecord e = d.drawLink e :=
  funext fun _ => if_pos (hasEdge_eq_true.mpr h)

theorem hasModule_linkSome (d : Draft) (es : List Edge) (id : ModuleId) :
    (d.linkSome es).hasModule id = d.hasModule id :=
  hasModule_eq_of_keys (OrderedMap.keys_mapValues ..) id

theorem isSome_recordOf?_linkSome (d : Draft) (es : List Edge) (e : Edge) :
    ((d.linkSome es).recordOf? e).isSome = (d.recordOf? e).isSome := by
  rw [recordOf?, recordOf?, linkSome, OrderedMap.get?_mapValues]
  cases d.modules.get? e.importer with
  | none => rfl
  | some leaf =>
    change ((leaf.imports.mapValues _).get? e.target).isSome = _
    rw [OrderedMap.get?_mapValues, Option.isSome_map]
    rfl

theorem linkSome_nil (d : Draft) : d.linkSome [] = d := by
  have hrecord : ∀ e, d.linkRecordAmong [] e = fun record => record := fun _ =>
    funext fun _ => if_neg List.not_mem_nil
  have hleaf : ∀ id leaf, d.linkLeafAmong [] id leaf = leaf := fun id leaf => by
    simp only [linkLeafAmong, hrecord, OrderedMap.mapValues_self]
  rw [linkSome, funext fun id => funext (hleaf id), OrderedMap.mapValues_self]

theorem linkSome_of_subset (h : ∀ e ∈ d.edges, e ∈ es) : d.linkSome es = d.link := by
  have hrecord : d.linkRecordAmong es = d.linkRecord := by
    funext e record
    rw [linkRecordAmong]
    split
    · rfl
    · rename_i hnot
      rw [linkRecord_of_notMem fun he => hnot (h e he)]
  have hleaf : d.linkLeafAmong es = d.linkImports := by
    funext id leaf
    rw [linkLeafAmong, hrecord, linkImports]
  rw [linkSome, hleaf]
  rfl

/-- One more import adds its own link, even if it was drawn before. -/
theorem linkRecordAmong_append (d : Draft) (es : List Edge) (e e' : Edge) :
    d.linkRecordAmong (es ++ [e]) e' = fun record =>
      if e' = e then d.linkRecord e (d.linkRecordAmong es e' record)
      else d.linkRecordAmong es e' record := by
  funext record
  unfold linkRecordAmong
  by_cases he : e' = e
  · subst he
    rw [if_pos List.mem_concat_self, if_pos rfl]
    split
    · rw [linkRecord_linkRecord fun _ h => h]
    · rfl
  · simp only [List.mem_append, List.mem_singleton, he, or_false, if_false]

theorem linkLeafAmong_append (he : e ∈ d.edges) (es : List Edge) (id : ModuleId) (leaf : Leaf) :
    d.linkLeafAmong (es ++ [e]) id leaf
      = if id = e.importer then d.linkLeafEdge e (d.linkLeafAmong es id leaf)
        else d.linkLeafAmong es id leaf := by
  by_cases hid : id = e.importer
  · have hedge : ∀ target, (⟨id, target⟩ : Edge) = e ↔ target = e.target := by
      intro target
      cases e
      simpa using fun _ => hid
    simp only [linkLeafAmong, linkLeafEdge, if_pos hid, OrderedMap.modify,
      OrderedMap.mapValues_mapValues, linkRecordAmong_append, hedge, linkRecord_of_mem he]
  · have hedge : ∀ target, (⟨id, target⟩ : Edge) ≠ e := fun target h => hid (h ▸ rfl)
    simp only [linkLeafAmong, if_neg hid, linkRecordAmong_append, hedge, if_false]

/-- **To link one more import is to write its record.** -/
theorem linkEdge_linkSome (he : e ∈ d.edges) (es : List Edge) :
    (d.linkSome es).linkEdge e = d.linkSome (es ++ [e]) := by
  have hdraw : (d.linkSome es).drawLink e = d.drawLink e := by
    funext record
    rw [drawLink, drawLink, hasModule_linkSome]
    rfl
  have hleaf : (d.linkSome es).linkLeafEdge e = d.linkLeafEdge e := by
    funext leaf
    rw [linkLeafEdge, linkLeafEdge, hdraw]
  rw [linkEdge, hleaf]
  simp only [linkSome, OrderedMap.modify, OrderedMap.mapValues_mapValues,
    ← linkLeafAmong_append he]

theorem countsOf_append (d : Draft) (es : List Edge) (e : Edge) :
    d.countsOf (es ++ [e])
      = if (d.recordOf? e).isSome then
          (d.countsOf es).add (d.hasModule e.target) (d.hasEdge e.flip)
        else d.countsOf es := by
  have hcount (p : Edge → Bool) (l : List Edge) :
      (l ++ [e]).countP p = l.countP p + (p e).toNat := by
    rw [List.countP_append, List.countP_singleton]
    cases p e <;> rfl
  unfold countsOf
  rw [List.filter_append]
  cases h : (d.recordOf? e).isSome with
  | true => simp only [List.filter_cons, List.filter_nil, h, if_true, hcount, LinkCounts.add]
  | false =>
    simp only [List.filter_cons, List.filter_nil, h, Bool.false_eq_true, if_false, List.append_nil]

/-- One step along a queue of imports. -/
theorem linkNext_linkSome (he : e ∈ d.edges) (es : List Edge) :
    linkNext (d.linkSome es, d.countsOf es) e
      = (d.linkSome (es ++ [e]), d.countsOf (es ++ [e])) := by
  have hedge : (d.linkSome es).hasEdge e.flip = d.hasEdge e.flip := rfl
  rw [linkNext, linkEdge_linkSome he, isSome_recordOf?_linkSome, hasModule_linkSome, hedge,
    countsOf_append]

/-- A queue of edges of the draft is gone through one by one. -/
theorem foldl_linkNext {queue : List Edge} (h : ∀ e ∈ queue, e ∈ d.edges) (es : List Edge) :
    queue.foldl linkNext (d.linkSome es, d.countsOf es)
      = (d.linkSome (es ++ queue), d.countsOf (es ++ queue)) := by
  induction queue generalizing es with
  | nil => rw [List.append_nil]; rfl
  | cons e queue ih =>
    obtain ⟨he, hqueue⟩ := List.forall_mem_cons.mp h
    rw [List.foldl_cons, linkNext_linkSome he, ih hqueue, List.append_assoc]
    rfl

/-- The draft and the counts after some of its edges. -/
theorem linkQueue_of_subset {queue : List Edge} (h : ∀ e ∈ queue, e ∈ d.edges) :
    d.linkQueue queue = (d.linkSome queue, d.countsOf queue) := by
  have hrun := foldl_linkNext h []
  rw [linkSome_nil, List.nil_append] at hrun
  exact hrun

/-- **Imports may be linked one by one, in any order.** -/
theorem linkQueue_eq {queue : List Edge} (h : queue.Perm d.edges) :
    d.linkQueue queue = (d.link, d.linkCounts) := by
  have hrecorded := h.filter fun e => (d.recordOf? e).isSome
  have hcounts : d.countsOf queue = d.linkCounts := by
    simp only [countsOf, linkCounts, hrecorded.countP_eq]
  rw [linkQueue_of_subset fun e he => h.mem_iff.mp he,
    linkSome_of_subset fun e he => h.mem_iff.mpr he, hcounts]

/-- The order of the edges of a draft does not matter for its links. -/
theorem modules_link_of_perm {queue : List Edge} (h : queue.Perm d.edges) :
    { d with edges := queue }.link.modules = d.link.modules := by
  have himports : { d with edges := queue }.linkImports = d.linkImports :=
    linkImports_congr (hasEdge_eq_of_perm h) fun _ => rfl
  exact congrArg d.modules.mapValues himports

/-! ## What linking leaves alone -/

/-- **Drafts that differ in links at most**, and only in those of the edges of the first. -/
structure DiffersInLinks (d d' : Draft) : Prop where
  edges_eq : d'.edges = d.edges
  visited_eq : d'.visited = d.visited
  keys_eq : d'.modules.keys = d.modules.keys
  leaf_eq : ∀ {id leaf}, d.modules.get? id = some leaf → ∃ leaf', d'.modules.get? id = some leaf' ∧
    leaf'.id = leaf.id ∧ leaf'.dialect = leaf.dialect ∧ leaf'.exports = leaf.exports ∧
    leaf'.imports.keys = leaf.imports.keys
  record_eq : ∀ {e record}, d.recordOf? e = some record → ∃ record', d'.recordOf? e = some record' ∧
    record'.specifiers = record.specifiers ∧ record'.bindings = record.bindings ∧
    (e ∉ d.edges → record' = record)

/-- **Linking writes links of edges and nothing else.** -/
theorem differsInLinks_link (d : Draft) : d.DiffersInLinks d.link where
  edges_eq := rfl
  visited_eq := rfl
  keys_eq := keys_link d
  leaf_eq {id leaf} h := by
    refine ⟨d.linkImports id leaf, ?_, rfl, rfl, rfl, OrderedMap.keys_mapValues ..⟩
    rw [get?_modules_link, h, Option.map_some]
  record_eq {e record} h := by
    refine ⟨d.linkRecord e record, by rw [recordOf?_link, h, Option.map_some], ?_, ?_,
      fun he => linkRecord_of_notMem he record⟩
    · unfold linkRecord
      split <;> rfl
    · unfold linkRecord
      split <;> rfl

/-- **Linking is incremental.**  Of the linkings in a run that ends with one, all but the last may be
left out, or others put in: the draft at the end is the same, and so are the counts of the last.  The
edges may be linked in any order.  To link twice is to link once; and nothing changes but links of
edges. -/
theorem linking_is_incremental (d : Draft) :
    (∀ ops ops' : List Operation, ops.filter (!·.isLink) = ops'.filter (!·.isLink) →
      Operation.run (ops ++ [.link]) d = Operation.run (ops' ++ [.link]) d ∧
      (Operation.run ops d).linkCounts = (Operation.run ops' d).linkCounts) ∧
    (∀ queue : List Edge, queue.Perm d.edges →
      d.linkQueue queue = (d.link, d.linkCounts) ∧
      { d with edges := queue }.link.modules = d.link.modules ∧
      { d with edges := queue }.linkCounts = d.linkCounts) ∧
    (d.link.link = d.link ∧ d.link.linkCounts = d.linkCounts) ∧
    d.DiffersInLinks d.link := by
  refine ⟨fun ops ops' hops => ?_, fun queue hqueue => ?_, ⟨link_link d, linkCounts_link d⟩,
    differsInLinks_link d⟩
  · have hlink : (Operation.run ops d).link = (Operation.run ops' d).link := by
      rw [Operation.link_run_filter, hops, ← Operation.link_run_filter]
    rw [Operation.run_append_link, Operation.run_append_link]
    exact ⟨hlink, linkCounts_eq_of_link_eq hlink⟩
  · refine ⟨linkQueue_eq hqueue, modules_link_of_perm hqueue, ?_⟩
    exact linkCounts_congr hqueue (fun _ => rfl) fun _ => rfl

/-- The twins may be linked when only the first of them is analysed: once both are, the last linking
draws both links all the same, and either of them may come first. -/
theorem linking_is_incremental_twins :
    let first : Operation := .analyze Memory.twins.toFileSystem {} Memory.twinA
    let second : Operation := .analyze Memory.twins.toFileSystem {} Memory.twinB
    let d := Operation.run [first, second] empty
    let backwards : List Edge := [⟨Memory.twinB, Memory.twinA⟩, ⟨Memory.twinA, Memory.twinB⟩]
    Operation.run [first, .link, second, .link] empty = Operation.run [first, second, .link] empty ∧
      (Operation.run [first, .link, second] empty).linkCounts = d.linkCounts ∧
      backwards.Perm d.edges ∧ d.linkQueue backwards = (d.link, ⟨2, 0, 2⟩) := by
  intro first second d backwards
  obtain ⟨hruns, _⟩ := linking_is_incremental empty
  obtain ⟨hrun, hcounts⟩ := hruns [first, .link, second] [first, second] rfl
  obtain ⟨_, hqueues, _⟩ := linking_is_incremental d
  have hedges : d.edges = [⟨Memory.twinA, Memory.twinB⟩, ⟨Memory.twinB, Memory.twinA⟩] := by
    decide +kernel
  have hperm : backwards.Perm d.edges := hedges ▸ .swap ..
  have htwo : d.linkCounts = ⟨2, 0, 2⟩ := by decide +kernel
  refine ⟨hrun, hcounts, hperm, ?_⟩
  rw [(hqueues backwards hperm).1, htwo]

end Draft

end ImportAtlas
