import ImportAtlas.Proofs.AnalysisOrder
import Mathlib.Data.Finset.Dedup
import Mathlib.Data.Finset.Insert
import Mathlib.Logic.Relation

/-!
# Proofs/Ledger — four tables that stay in step

A draft keeps its edges in one list.  A **ledger** keeps them twice: in a set, which tells whether an
edge is new, and in a queue, which is gone through when the modules are linked.  Its operations write
the tables one entry at a time, an analysis statement by statement up to the first that fails.  All
of them consist of four kinds of steps (`steps_apply`); a step keeps the tables in step with each other
(`Step.isCoherent`) and only adds to them, links apart (`Step.extends`).  So a ledger never says
anything but what the draft says (`after_eq_toLedger`).
-/

namespace ImportAtlas

/-- The record before it is linked. -/
def ImportRecord.unlinked (r : ImportRecord) : ImportRecord :=
  { r with isMutual := false, resolved := none }

/-- The leaf before it is linked. -/
def Leaf.unlinked (leaf : Leaf) : Leaf :=
  { leaf with imports := leaf.imports.mapValues fun _ => ImportRecord.unlinked }

/-- **The tables of a draft**, each written on its own. -/
structure Ledger where
  /-- The modules, in the order they were analysed. -/
  modules : OrderedMap ModuleId Leaf
  /-- All imports that were found. -/
  found : Finset Edge
  /-- The imports that are to be linked, in the order they were found. -/
  queue : List Edge
  /-- The modules that an exploration has come to. -/
  visited : Finset ModuleId

namespace Ledger

variable {l l' l'' : Ledger} {d : Draft} {e : Edge} {id : ModuleId} {leaf : Leaf}

/-! ## Operations -/

/-- The ledger of nothing. -/
def empty : Ledger := ⟨.empty, ∅, [], ∅⟩

/-- The ledger with a module, and whether the module is new; if it is not, the first one stays. -/
def register (l : Ledger) (leaf : Leaf) : Ledger × Bool :=
  if l.modules.contains leaf.id then (l, false)
  else ({ l with modules := l.modules.insert leaf.id leaf }, true)

/-- The ledger with an import, which is queued only if it is new. -/
def record (l : Ledger) (e : Edge) : Ledger :=
  if e ∈ l.found then l else { l with found := insert e l.found, queue := l.queue ++ [e] }

/-- The ledger with a mark that an exploration has come to a module, and whether it is the first. -/
def claim (l : Ledger) (id : ModuleId) : Ledger × Bool :=
  if id ∈ l.visited then (l, false) else ({ l with visited := insert id l.visited }, true)

/-- The ledger and the records of a module after some of its statements.  An import is recorded as
soon as it is found, so that it stays when a later one fails. -/
def follow (resolve : String → Except BuildError Resolution) (id : ModuleId) :
    List ImportStatement → OrderedMap ModuleId ImportRecord → Ledger →
      Ledger × Except BuildError (OrderedMap ModuleId ImportRecord)
  | [], imports, l => (l, .ok imports)
  | s :: rest, imports, l =>
    match resolve s.source with
    | .error e => (l, .error e)
    | .ok (.external _) => follow resolve id rest imports l
    | .ok (.file target) =>
      follow resolve id rest (imports.update target (ImportRecord.merge s)) (l.record ⟨id, target⟩)

/-- The ledger after the analysis of a module, and the files that the module imports. -/
def analyze (fs : FileSystem) (config : Config) (l : Ledger) (id : ModuleId) :
    Ledger × Except BuildError (List ModuleId) :=
  match fs.readStructure config.maxFileSize id.path with
  | .error e => (l, .error e)
  | .ok (dialect, contents) =>
    match follow (fs.resolve config.vendorDirs id.path) id contents.imports .empty l with
    | (l, .error e) => (l, .error e)
    | (l, .ok imports) =>
      ((l.register ⟨id, dialect, imports, contents.exports⟩).1, .ok imports.keys)

/-- The ledger with imports, one after the other. -/
def recordEach (l : Ledger) (edges : List Edge) : Ledger := edges.foldl record l

theorem recordEach_cons (l : Ledger) (e : Edge) (edges : List Edge) :
    l.recordEach (e :: edges) = (l.record e).recordEach edges := List.foldl_cons ..

/-- **What is done statement by statement** is what is done with all that the statements lead to. -/
theorem follow_eq (resolve : String → Except BuildError Resolution) (id : ModuleId)
    (statements : List ImportStatement) (imports : OrderedMap ModuleId ImportRecord) (l : Ledger) :
    follow resolve id statements imports l =
      (l.recordEach (((Targets.of resolve statements).found.map Prod.fst).map (Edge.mk id)),
        match (Targets.of resolve statements).failure with
        | some e => .error e
        | none => .ok ((Targets.of resolve statements).found.foldl
            (fun m (target, s) => m.update target (ImportRecord.merge s)) imports)) := by
  induction statements generalizing imports l with
  | nil => rfl
  | cons s rest ih =>
    rw [follow, Targets.of]
    rcases resolve s.source with e | (target | other)
    · rfl
    · simp only [ih, List.map_cons, List.foldl_cons, recordEach_cons]
    · exact ih imports l

/-- **What an analysis does to a ledger**, in terms of what it brings to light: it records the imports
that are found, and registers the leaf if there is one. -/
theorem analyze_eq (fs : FileSystem) (config : Config) (l : Ledger) (id : ModuleId) :
    l.analyze fs config id =
      match (fs.analyze config id).leaf with
      | .error e =>
        (l.recordEach ((fs.analyze config id).targets.map (Edge.mk id)), .error e)
      | .ok leaf =>
        (((l.recordEach ((fs.analyze config id).targets.map (Edge.mk id))).register leaf).1,
          .ok leaf.imports.keys) := by
  unfold analyze FileSystem.analyze
  cases fs.readStructure config.maxFileSize id.path with
  | error e => rfl
  | ok r =>
    simp only [follow_eq]
    cases (Targets.of (fs.resolve config.vendorDirs id.path) r.2.imports).failure with
    | some e => rfl
    | none => rfl

/-- The record of an import. -/
def recordOf? (l : Ledger) (e : Edge) : Option ImportRecord :=
  (l.modules.get? e.importer).bind fun leaf => leaf.importOf? e.target

/-- The record with the link of an import. -/
def drawLink (l : Ledger) (e : Edge) (record : ImportRecord) : ImportRecord :=
  { record with
    isMutual := decide (e.flip ∈ l.found)
    resolved := if l.modules.contains e.target then some e.target else none }

/-- The ledger with the link of an import, if there is a record of it. -/
def writeLink (l : Ledger) (e : Edge) : Ledger :=
  { l with
    modules := l.modules.modify e.importer fun leaf =>
      { leaf with imports := leaf.imports.modify e.target (l.drawLink e) } }

/-- The ledger and the counts after one more import of the queue. -/
def linkNext (state : Ledger × Draft.LinkCounts) (e : Edge) : Ledger × Draft.LinkCounts :=
  (state.1.writeLink e,
    if (state.1.recordOf? e).isSome then
      state.2.add (state.1.modules.contains e.target) (decide (e.flip ∈ state.1.found))
    else state.2)

/-- The ledger with its queue linked, one import after the other, and the counts of the imports. -/
def linkAll (l : Ledger) : Ledger × Draft.LinkCounts := l.queue.foldl linkNext (l, ⟨0, 0, 0⟩)

/-- The ledger after one operation. -/
def apply (l : Ledger) : Draft.Operation → Ledger
  | .analyze fs config id => (l.analyze fs config id).1
  | .addModule leaf => (l.register leaf).1
  | .addEdge e => l.record e
  | .visit id => (l.claim id).1
  | .link => l.linkAll.1

/-- The ledger after some operations, from nothing. -/
def after (ops : List Draft.Operation) : Ledger := ops.foldl apply empty

/-! ## What an operation consists of -/

/-- One entry is written to a ledger. -/
inductive Step (l : Ledger) : Ledger → Prop
  | register (leaf : Leaf) : Step l (l.register leaf).1
  | record (e : Edge) : Step l (l.record e)
  | claim (id : ModuleId) : Step l (l.claim id).1
  | writeLink (e : Edge) : Step l (l.writeLink e)

/-- Entries are written to a ledger, one after the other. -/
abbrev Steps : Ledger → Ledger → Prop := Relation.ReflTransGen Step

theorem steps_follow (resolve : String → Except BuildError Resolution) (id : ModuleId)
    (statements : List ImportStatement) (imports : OrderedMap ModuleId ImportRecord) (l : Ledger) :
    Steps l (follow resolve id statements imports l).1 := by
  induction statements generalizing imports l with
  | nil => exact .refl
  | cons s rest ih =>
    unfold follow
    split
    · exact .refl
    · exact ih imports l
    · exact .head (.record _) (ih _ _)

/-- An analysis records imports and registers its module at the end, if it comes there. -/
theorem steps_analyze (fs : FileSystem) (config : Config) (l : Ledger) (id : ModuleId) :
    Steps l (l.analyze fs config id).1 := by
  unfold analyze
  split
  · exact .refl
  · rename_i contents _
    have hsteps := steps_follow (fs.resolve config.vendorDirs id.path) id contents.imports .empty l
    split
    · rename_i hfollow
      rwa [hfollow] at hsteps
    · rename_i hfollow
      rw [hfollow] at hsteps
      exact hsteps.tail (.register _)

theorem steps_foldl_linkNext (queue : List Edge) (state : Ledger × Draft.LinkCounts) :
    Steps state.1 (queue.foldl linkNext state).1 := by
  induction queue generalizing state with
  | nil => exact .refl
  | cons e queue ih => exact .head (.writeLink e) (ih (linkNext state e))

/-- **All operations consist of steps.** -/
theorem steps_apply (l : Ledger) : ∀ op : Draft.Operation, Steps l (l.apply op)
  | .analyze fs config id => steps_analyze fs config l id
  | .addModule leaf => .single (.register leaf)
  | .addEdge e => .single (.record e)
  | .visit id => .single (.claim id)
  | .link => steps_foldl_linkNext l.queue (l, ⟨0, 0, 0⟩)

theorem steps_foldl_apply (ops : List Draft.Operation) (l : Ledger) :
    Steps l (ops.foldl apply l) := by
  induction ops generalizing l with
  | nil => exact .refl
  | cons op ops ih => exact (steps_apply l op).trans (ih _)

/-! ## What a step keeps -/

/-- **The tables are in step with each other**: the queue holds each import that was found, once, and
modules stand under their own names. -/
structure IsCoherent (l : Ledger) : Prop where
  nodup_queue : l.queue.Nodup
  mem_queue : ∀ e, e ∈ l.queue ↔ e ∈ l.found
  id_eq : ∀ {id leaf}, l.modules.get? id = some leaf → leaf.id = id

theorem isCoherent_empty : empty.IsCoherent where
  nodup_queue := List.nodup_nil
  mem_queue e := by simp [empty]
  id_eq h := by simp [empty] at h

theorem IsCoherent.register (h : l.IsCoherent) (leaf : Leaf) : (l.register leaf).1.IsCoherent := by
  unfold Ledger.register
  split
  · exact h
  · refine ⟨h.nodup_queue, h.mem_queue, fun {id known} hget => ?_⟩
    simp only [OrderedMap.insert, OrderedMap.get?_update] at hget
    split at hget
    · rename_i hid
      rw [← Option.some.inj hget, hid]
    · exact h.id_eq hget

theorem IsCoherent.record (h : l.IsCoherent) (e : Edge) : (l.record e).IsCoherent := by
  unfold Ledger.record
  split
  · exact h
  · rename_i hnew
    have hqueue : e ∉ l.queue := mt (h.mem_queue e).mp hnew
    refine ⟨?_, fun other => ?_, h.id_eq⟩
    · rw [← List.concat_eq_append]
      exact h.nodup_queue.concat hqueue
    · rw [List.mem_append, List.mem_singleton, Finset.mem_insert, h.mem_queue, or_comm]

theorem IsCoherent.writeLink (h : l.IsCoherent) (e : Edge) : (l.writeLink e).IsCoherent := by
  refine ⟨h.nodup_queue, h.mem_queue, fun {id leaf} hget => ?_⟩
  simp only [Ledger.writeLink, OrderedMap.get?_modify] at hget
  split at hget
  · obtain ⟨known, hknown, rfl⟩ := Option.map_eq_some_iff.mp hget
    have hid : known.id = id := h.id_eq hknown
    exact hid
  · exact h.id_eq hget

/-- **A step keeps the tables in step.** -/
theorem Step.isCoherent (hstep : Step l l') (h : l.IsCoherent) : l'.IsCoherent := by
  cases hstep with
  | register leaf => exact h.register leaf
  | record e => exact h.record e
  | claim id =>
    unfold Ledger.claim
    split
    · exact h
    · exact ⟨h.nodup_queue, h.mem_queue, h.id_eq⟩
  | writeLink e => exact h.writeLink e

theorem Steps.isCoherent (hsteps : Steps l l') (h : l.IsCoherent) : l'.IsCoherent := by
  induction hsteps with
  | refl => exact h
  | tail _ hstep ih => exact hstep.isCoherent ih

/-- **Nothing is lost from one ledger to another**: all tables start or go on as they were, and no leaf
changes but for the links of its records. -/
structure Extends (l l' : Ledger) : Prop where
  queue : l.queue <+: l'.queue
  found : l.found ⊆ l'.found
  visited : l.visited ⊆ l'.visited
  keys : l.modules.keys <+: l'.modules.keys
  leaf : ∀ {id leaf}, l.modules.get? id = some leaf →
    ∃ leaf', l'.modules.get? id = some leaf' ∧ leaf'.unlinked = leaf.unlinked

namespace Extends

theorem refl (l : Ledger) : l.Extends l where
  queue := List.prefix_rfl
  found := subset_rfl
  visited := subset_rfl
  keys := List.prefix_rfl
  leaf h := ⟨_, h, rfl⟩

theorem trans (h : l.Extends l') (h' : l'.Extends l'') : l.Extends l'' where
  queue := h.queue.trans h'.queue
  found := h.found.trans h'.found
  visited := h.visited.trans h'.visited
  keys := h.keys.trans h'.keys
  leaf hget := by
    obtain ⟨leaf', hget', heq'⟩ := h.leaf hget
    obtain ⟨leaf'', hget'', heq''⟩ := h'.leaf hget'
    exact ⟨leaf'', hget'', heq''.trans heq'⟩

end Extends

theorem extends_register (l : Ledger) (leaf : Leaf) : l.Extends (l.register leaf).1 := by
  unfold register
  split
  · exact .refl l
  · rename_i hnew
    have hkey : leaf.id ∉ l.modules.keys := by rwa [OrderedMap.contains_eq_true] at hnew
    refine { Extends.refl l with keys := ?_, leaf := fun {id known} hget => ⟨known, ?_, rfl⟩ }
    · simp only [OrderedMap.insert, OrderedMap.keys_update, if_neg hkey, List.prefix_append]
    · have hne : id ≠ leaf.id := fun hid => hkey (hid ▸ OrderedMap.mem_keys_of_get? hget)
      simp only [OrderedMap.insert, OrderedMap.get?_update, if_neg hne, hget]

theorem extends_record (l : Ledger) (e : Edge) : l.Extends (l.record e) := by
  unfold record
  split
  · exact .refl l
  · exact { Extends.refl l with
      queue := List.prefix_append ..
      found := Finset.subset_insert .. }

theorem extends_claim (l : Ledger) (id : ModuleId) : l.Extends (l.claim id).1 := by
  unfold claim
  split
  · exact .refl l
  · exact { Extends.refl l with visited := Finset.subset_insert .. }

theorem unlinked_drawLink (l : Ledger) (e : Edge) (record : ImportRecord) :
    (l.drawLink e record).unlinked = record.unlinked := rfl

/-- A link is written into one record, and into nothing else of it. -/
theorem extends_writeLink (l : Ledger) (e : Edge) : l.Extends (l.writeLink e) := by
  refine { Extends.refl l with keys := ?_, leaf := fun {id leaf} hget => ?_ }
  · rw [writeLink, OrderedMap.keys_modify]
  · simp only [writeLink, OrderedMap.get?_modify, hget, Option.map_some]
    split
    · refine ⟨_, rfl, ?_⟩
      have hrecord (target : ModuleId) (record : ImportRecord) :
          (if target = e.target then l.drawLink e record else record).unlinked
            = record.unlinked := by
        split
        · exact unlinked_drawLink ..
        · rfl
      simp only [Leaf.unlinked, OrderedMap.modify, OrderedMap.mapValues_mapValues, hrecord]
    · exact ⟨leaf, rfl, rfl⟩

/-- **A step only adds**, links apart. -/
theorem Step.extends (h : Step l l') : l.Extends l' := by
  cases h with
  | register leaf => exact extends_register l leaf
  | record e => exact extends_record l e
  | claim id => exact extends_claim l id
  | writeLink e => exact extends_writeLink l e

theorem Steps.extends (h : Steps l l') : l.Extends l' := by
  induction h with
  | refl => exact .refl l
  | tail _ hstep ih => exact ih.trans hstep.extends

end Ledger

/-! ## Drafts as ledgers -/

theorem toFinset_concat {α : Type} [DecidableEq α] (as : List α) (a : α) :
    (as ++ [a]).toFinset = insert a as.toFinset := by
  ext b
  rw [List.mem_toFinset, List.mem_append, List.mem_singleton, Finset.mem_insert, List.mem_toFinset,
    or_comm]

/-- The draft with its edges written down twice. -/
def Draft.toLedger (d : Draft) : Ledger := ⟨d.modules, d.edges.toFinset, d.edges, d.visited.toFinset⟩

namespace Ledger

variable {d : Draft} {e : Edge} {id : ModuleId}

theorem mem_found_toLedger : e ∈ d.toLedger.found ↔ d.hasEdge e = true := by
  rw [Draft.hasEdge_eq_true]
  exact List.mem_toFinset

theorem decide_mem_found (d : Draft) (e : Edge) : decide (e ∈ d.toLedger.found) = d.hasEdge e := by
  rw [Bool.eq_iff_iff, decide_eq_true_iff, mem_found_toLedger]

theorem record_toLedger (d : Draft) (e : Edge) : d.toLedger.record e = (d.addEdge e).toLedger := by
  unfold record Draft.addEdge
  simp only [mem_found_toLedger]
  split
  · rfl
  · simp only [Draft.toLedger, toFinset_concat]

theorem register_toLedger (d : Draft) (leaf : Leaf) :
    d.toLedger.register leaf = ((d.addModule leaf).toLedger, !d.hasModule leaf.id) := by
  unfold register
  split
  · rename_i hknown
    have hknown : d.hasModule leaf.id = true := hknown
    rw [Draft.addModule_eq_self (OrderedMap.contains_eq_true.mp hknown), hknown]
    rfl
  · rename_i hnew
    have hnew : ¬ d.hasModule leaf.id = true := hnew
    have hnone : d.modules.get? leaf.id = none := by
      rwa [OrderedMap.get?_eq_none_iff, ← OrderedMap.contains_eq_true]
    have hmodules : d.modules.insert leaf.id leaf = (d.addModule leaf).modules := by
      refine OrderedMap.ext_get? ?_ fun id _ => ?_
      · rw [Draft.keys_addModule, OrderedMap.insert, OrderedMap.keys_update]
      · rw [Draft.get?_addModule, OrderedMap.insert, OrderedMap.get?_update]
        split
        · rename_i hid
          rw [hid, hnone]
          rfl
        · rfl
    rw [Bool.not_eq_true] at hnew
    rw [hnew]
    exact congrArg (fun modules => ({ d.toLedger with modules := modules }, true)) hmodules

theorem claim_toLedger (d : Draft) (id : ModuleId) :
    d.toLedger.claim id = ((d.visit id).toLedger, !d.isVisited id) := by
  have hmem : id ∈ d.toLedger.visited ↔ d.isVisited id = true := by
    rw [Draft.isVisited, List.contains_iff_mem]
    exact List.mem_toFinset
  unfold claim Draft.visit
  simp only [hmem]
  split
  · rename_i hvisited
    rw [hvisited]
    rfl
  · rename_i hnew
    rw [Bool.not_eq_true] at hnew
    rw [hnew]
    simp only [Draft.toLedger, toFinset_concat, Bool.not_false]

theorem recordEach_toLedger (d : Draft) (id : ModuleId) (targets : List ModuleId) :
    d.toLedger.recordEach (targets.map (Edge.mk id))
      = (targets.foldl (fun d target => d.addEdge ⟨id, target⟩) d).toLedger := by
  induction targets generalizing d with
  | nil => rfl
  | cons target targets ih =>
    rw [List.map_cons, recordEach_cons, record_toLedger]
    exact ih _

/-- An analysis does to a ledger what it does to the draft. -/
theorem analyze_toLedger (fs : FileSystem) (config : Config) (d : Draft) (id : ModuleId) :
    d.toLedger.analyze fs config id
      = ((d.analyze fs config id).1.toLedger, (d.analyze fs config id).2) := by
  rw [analyze_eq, recordEach_toLedger, Draft.analyze, Draft.addFindings]
  cases (fs.analyze config id).leaf with
  | error e => rfl
  | ok leaf =>
    simp only [register_toLedger]
    rfl

theorem linkNext_toLedger (d : Draft) (counts : Draft.LinkCounts) (e : Edge) :
    linkNext (d.toLedger, counts) e
      = ((Draft.linkNext (d, counts) e).1.toLedger, (Draft.linkNext (d, counts) e).2) := by
  have hdraw : d.toLedger.drawLink e = d.drawLink e := by
    funext record
    rw [drawLink, Draft.drawLink, decide_mem_found]
    rfl
  simp only [linkNext, Draft.linkNext, writeLink, hdraw, decide_mem_found]
  rfl

/-- Linking its queue links the draft. -/
theorem linkAll_toLedger (d : Draft) : d.toLedger.linkAll = (d.link.toLedger, d.linkCounts) := by
  have hfold (queue : List Edge) (d : Draft) (counts : Draft.LinkCounts) :
      queue.foldl linkNext (d.toLedger, counts)
        = ((queue.foldl Draft.linkNext (d, counts)).1.toLedger,
            (queue.foldl Draft.linkNext (d, counts)).2) := by
    induction queue generalizing d counts with
    | nil => rfl
    | cons e queue ih =>
      rw [List.foldl_cons, linkNext_toLedger]
      exact ih _ _
  have hqueue : d.toLedger.linkAll
      = ((d.linkQueue d.edges).1.toLedger, (d.linkQueue d.edges).2) := hfold d.edges d ⟨0, 0, 0⟩
  rw [hqueue, Draft.linkQueue_eq (.refl _)]

theorem apply_toLedger (d : Draft) : ∀ op : Draft.Operation,
    d.toLedger.apply op = (op.apply d).toLedger
  | .analyze fs config id => congrArg Prod.fst (analyze_toLedger fs config d id)
  | .addModule leaf => congrArg Prod.fst (register_toLedger d leaf)
  | .addEdge e => record_toLedger d e
  | .visit id => congrArg Prod.fst (claim_toLedger d id)
  | .link => congrArg Prod.fst (linkAll_toLedger d)

/-- **A ledger says what the draft says** after the same operations. -/
theorem after_eq_toLedger (ops : List Draft.Operation) :
    after ops = (Draft.Operation.run ops .empty).toLedger := by
  have hfold (ops : List Draft.Operation) (d : Draft) :
      ops.foldl apply d.toLedger = (Draft.Operation.run ops d).toLedger := by
    induction ops generalizing d with
    | nil => rfl
    | cons op ops ih =>
      rw [List.foldl_cons, apply_toLedger]
      exact ih _
  exact hfold ops .empty

/-- **The tables stay in step, and nothing is lost.**  Whatever is done to an empty ledger, with
analyses that succeed or fail, each on the disk as it is at the time: its queue holds each import that
was found, once, and its modules stand under their own names.  All that is done afterwards only adds
to the tables; a module that is registered keeps its leaf, links apart.  And the ledger says what the
draft says. -/
theorem ledger_stays_coherent (ops more : List Draft.Operation) :
    (after ops).IsCoherent ∧ (after ops).Extends (after (ops ++ more)) ∧
      after ops = (Draft.Operation.run ops .empty).toLedger := by
  have hsteps : Steps (after ops) (after (ops ++ more)) := by
    rw [after, after, List.foldl_append]
    exact steps_foldl_apply more _
  exact ⟨(steps_foldl_apply ops empty).isCoherent isCoherent_empty, hsteps.extends,
    after_eq_toLedger ops⟩

end Ledger

end ImportAtlas
