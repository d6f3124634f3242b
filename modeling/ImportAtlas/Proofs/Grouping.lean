import ImportAtlas.Proofs.Ledger
import ImportAtlas.Proofs.Records
import Mathlib.Data.Finset.Lattice.Lemmas

/-!
# Proofs/Grouping — what one analysis adds to the tables

Several statements of a module may lead to one file.  An analysis goes through them one by one and
writes three tables at once: the records of the leaf, the set of imports that were found, and the
queue of those that are to be linked.  Each has a closed form in the list of the statements that lead
to files (`FileSystem.leads`): the records group it by file (`Leaf.Groups`), and the set and the queue
gain each of its files once (`Ledger.Gains`).  Nothing of it depends on the tables being in step with
each other before.
-/

namespace ImportAtlas

variable {fs : FileSystem} {config : Config} {id : ModuleId} {leaf : Leaf} {e : BuildError}
  {targets : List ModuleId}

/-- Different members stay different when they are mapped, so repetitions may be left out before. -/
theorem eraseDups_map {α β : Type} [DecidableEq α] [DecidableEq β] {f : α → β}
    (hf : Function.Injective f) (l : List α) : (l.map f).eraseDups = l.eraseDups.map f := by
  induction l using List.reverseRecOn with
  | nil => rfl
  | append_singleton l x ih =>
    have hmem : f x ∈ l.eraseDups.map f ↔ x ∈ l.eraseDups := List.mem_map_of_injective hf
    rw [List.map_append, List.map_singleton, eraseDups_append_singleton, ih,
      eraseDups_append_singleton]
    simp only [List.contains_iff_mem, hmem]
    split
    · rfl
    · rw [List.map_append, List.map_singleton]

/-! ## Imports that are recorded one after the other -/

namespace Ledger

variable {l l' : Ledger}

@[simp] theorem modules_record (l : Ledger) (e : Edge) : (l.record e).modules = l.modules := by
  unfold record
  split <;> rfl

@[simp] theorem visited_record (l : Ledger) (e : Edge) : (l.record e).visited = l.visited := by
  unfold record
  split <;> rfl

theorem found_record (l : Ledger) (e : Edge) : (l.record e).found = insert e l.found := by
  unfold record
  split
  · rename_i h
    exact (Finset.insert_eq_of_mem h).symm
  · rfl

theorem queue_record (l : Ledger) (e : Edge) :
    (l.record e).queue = if e ∈ l.found then l.queue else l.queue ++ [e] := by
  unfold record
  split <;> rfl

@[simp] theorem modules_recordEach (l : Ledger) (edges : List Edge) :
    (l.recordEach edges).modules = l.modules := by
  induction edges generalizing l with
  | nil => rfl
  | cons e edges ih => rw [recordEach_cons, ih, modules_record]

@[simp] theorem visited_recordEach (l : Ledger) (edges : List Edge) :
    (l.recordEach edges).visited = l.visited := by
  induction edges generalizing l with
  | nil => rfl
  | cons e edges ih => rw [recordEach_cons, ih, visited_record]

theorem found_recordEach (l : Ledger) (edges : List Edge) :
    (l.recordEach edges).found = l.found ∪ edges.toFinset := by
  induction edges generalizing l with
  | nil => exact (Finset.union_empty _).symm
  | cons e edges ih =>
    rw [recordEach_cons, ih, found_record, List.toFinset_cons, Finset.insert_union,
      Finset.union_insert]

/-- **Of all imports that are recorded, those that are new are queued**, each where it comes for the
first time. -/
theorem queue_recordEach (l : Ledger) (edges : List Edge) :
    (l.recordEach edges).queue = l.queue ++ edges.eraseDups.filter (· ∉ l.found) := by
  induction edges using List.reverseRecOn with
  | nil => exact (List.append_nil _).symm
  | append_singleton edges e ih =>
    have hlast : l.recordEach (edges ++ [e]) = (l.recordEach edges).record e :=
      List.foldl_append ..
    rw [hlast, queue_record, found_recordEach, ih, eraseDups_append_singleton]
    by_cases hknown : e ∈ l.found
    · by_cases hmem : e ∈ edges <;> simp [hknown, hmem]
    · by_cases hmem : e ∈ edges <;> simp [hknown, hmem]

/-! ## One analysis -/

/-- An analysis that succeeds. -/
theorem exists_leaf_of_analyze (h : l.analyze fs config id = (l', .ok targets)) :
    ∃ leaf, (fs.analyze config id).leaf = .ok leaf ∧ targets = leaf.imports.keys ∧
      l' = ((l.recordEach ((fs.analyze config id).targets.map (Edge.mk id))).register leaf).1 := by
  rw [analyze_eq] at h
  cases hleaf : (fs.analyze config id).leaf with
  | error e => simp [hleaf] at h
  | ok leaf =>
    simp only [hleaf, Prod.mk.injEq, Except.ok.injEq] at h
    exact ⟨leaf, rfl, h.2.symm, h.1.symm⟩

/-- An analysis that fails. -/
theorem error_of_analyze (h : l.analyze fs config id = (l', .error e)) :
    (fs.analyze config id).leaf = .error e ∧
      l' = l.recordEach ((fs.analyze config id).targets.map (Edge.mk id)) := by
  rw [analyze_eq] at h
  cases hleaf : (fs.analyze config id).leaf with
  | error e' =>
    simp only [hleaf, Prod.mk.injEq, Except.error.injEq] at h
    exact ⟨congrArg Except.error h.2, h.1.symm⟩
  | ok leaf => simp [hleaf] at h

/-- What an analysis does to the ledger of a draft, it does to the draft. -/
theorem analyze_draft {r : Except BuildError (List ModuleId)}
    (h : l.analyze fs config id = (l', r)) {d : Draft} (hd : d.toLedger = l) :
    (d.analyze fs config id).1.toLedger = l' ∧ (d.analyze fs config id).2 = r := by
  rw [← hd, analyze_toLedger, Prod.mk.injEq] at h
  exact h

/-- **A ledger that gains one module** with its imports, and nothing else: the leaf stands behind those
that are there already, and each of the files that it imports is found and queued, in their order. -/
structure Gains (l l' : Ledger) (leaf : Leaf) : Prop where
  keys : l'.modules.keys = l.modules.keys ++ [leaf.id]
  get?_self : l'.modules.get? leaf.id = some leaf
  get?_other : ∀ id ≠ leaf.id, l'.modules.get? id = l.modules.get? id
  found : l'.found = l.found ∪ (leaf.imports.keys.map (Edge.mk leaf.id)).toFinset
  queue : l'.queue = l.queue ++ leaf.imports.keys.map (Edge.mk leaf.id)
  visited : l'.visited = l.visited

/-- A new module is registered with imports of which none was found before. -/
theorem gains_register {imported : List ModuleId} (hnew : leaf.id ∉ l.modules.keys)
    (hfree : ∀ e ∈ l.found, e.importer ≠ leaf.id) (hkeys : leaf.imports.keys = imported.eraseDups) :
    l.Gains ((l.recordEach (imported.map (Edge.mk leaf.id))).register leaf).1 leaf := by
  have hregister : (l.recordEach (imported.map (Edge.mk leaf.id))).register leaf
      = ({ l.recordEach (imported.map (Edge.mk leaf.id)) with
          modules := l.modules.insert leaf.id leaf }, true) := by
    rw [register, modules_recordEach, if_neg (by rwa [OrderedMap.contains_eq_true])]
  have hinjective : Function.Injective (Edge.mk leaf.id) := fun _ _ h => congrArg Edge.target h
  rw [hregister]
  refine ⟨?_, ?_, fun id hid => ?_, ?_, ?_, visited_recordEach ..⟩
  · simp only [OrderedMap.insert, OrderedMap.keys_update, if_neg hnew]
  · simp only [OrderedMap.insert, OrderedMap.get?_update, if_true]
  · simp only [OrderedMap.insert, OrderedMap.get?_update, if_neg hid]
  · rw [found_recordEach, hkeys]
    refine congrArg _ (Finset.ext fun e => ?_)
    simp only [List.mem_toFinset, List.mem_map, List.mem_eraseDups]
  · rw [queue_recordEach, hkeys, eraseDups_map hinjective, List.filter_eq_self.mpr]
    intro e he
    obtain ⟨t, _, rfl⟩ := List.mem_map.mp he
    exact decide_eq_true fun hmem => hfree _ hmem rfl

end Ledger

/-! ## Statements by the file that they lead to -/

namespace FileSystem

/-- The statements that lead to files, each with its file, in the order they are written. -/
def leads (fs : FileSystem) (vendorDirs : List String) (importer : Path)
    (statements : List ImportStatement) : List (ModuleId × ImportStatement) :=
  statements.filterMap fun s => (targetOf? (fs.resolve vendorDirs importer s.source)).map (·, s)

/-- What is found among statements of which none fails. -/
theorem leads_eq {vendorDirs : List String} {importer : Path} {statements : List ImportStatement}
    {found : List (ModuleId × ImportStatement)}
    (h : Targets.of (fs.resolve vendorDirs importer) statements = ⟨found, none⟩) :
    fs.leads vendorDirs importer statements = found := by
  have hnone := congrArg Targets.failure h
  exact (Targets.found_eq hnone).symm.trans (congrArg Targets.found h)

end FileSystem

/-- Those of the statements that lead to one file. -/
def statementsOf (found : List (ModuleId × ImportStatement)) (t : ModuleId) :
    List ImportStatement :=
  (found.filter fun f => f.1 == t).map Prod.snd

/-- **A record that gathers statements**: each of their sources once, where it is written first, and
all that they bind, one statement after the other; nothing is known of the other module yet. -/
structure ImportRecord.Gathers (record : ImportRecord) (statements : List ImportStatement) :
    Prop where
  specifiers : record.specifiers = (statements.map (·.source)).eraseDups
  firstSpecifier : (statements.map (·.source)).head? = some record.firstSpecifier
  bindings : record.bindings = statements.flatMap (·.bindings)
  resolved : record.resolved = none
  isMutual : record.isMutual = false

/-- **A leaf that groups statements by the file that they lead to**, in the order in which the files
come up first. -/
structure Leaf.Groups (leaf : Leaf) (found : List (ModuleId × ImportStatement)) : Prop where
  keys : leaf.imports.keys = (found.map Prod.fst).eraseDups
  record : ∀ t ∈ leaf.imports.keys, ∃ record,
    leaf.importOf? t = some record ∧ record.Gathers (statementsOf found t)

/-- What statements leave behind gathers them. -/
theorem ImportRecord.exists_gathers {statements : List ImportStatement} (hne : statements ≠ []) :
    ∃ record, collect statements = some record ∧ record.Gathers statements := by
  obtain ⟨s, rest, rfl⟩ := List.exists_cons_of_ne_nil hne
  refine ⟨_, collect_eq hne, rfl, ?_, rfl, rfl, rfl⟩
  rw [firstSpecifier, List.map_cons, List.eraseDups_cons]
  rfl

/-- **The records of statements group them.** -/
theorem groups_importRecords {found : List (ModuleId × ImportStatement)}
    (h : leaf.imports = importRecords found) : leaf.Groups found where
  keys := by rw [h, keys_importRecords]
  record t ht := by
    rw [h, mem_keys_importRecords] at ht
    obtain ⟨f, hf, rfl⟩ := List.mem_map.mp ht
    have hmem : f.2 ∈ statementsOf found f.1 :=
      List.mem_map_of_mem (List.mem_filter.mpr ⟨hf, beq_self_eq_true _⟩)
    obtain ⟨record, hrecord, hgathers⟩ := ImportRecord.exists_gathers (List.ne_nil_of_mem hmem)
    refine ⟨record, ?_, hgathers⟩
    rw [Leaf.importOf?, h, get?_importRecords]
    exact hrecord

/-- **An analysis that succeeds groups the statements of its module and loses none.**  Say that a
module is analysed which a ledger does not have yet, and from which no import was found.  Then the
module is read, each of its statements leads somewhere, and those that lead to files are grouped by
file in the leaf; its exports are those that are written.  The files are answered in the order in
which they come up first, and the ledger gains the leaf, an import for each of the files and one
place in the queue for each import, and nothing else.  The ledger of a draft changes as the draft
does. -/
theorem Ledger.analysis_groups_statements (fs : FileSystem) (config : Config) {l l' : Ledger}
    {id : ModuleId} {targets : List ModuleId} (h : l.analyze fs config id = (l', .ok targets))
    (hnew : id ∉ l.modules.keys) (hfree : ∀ e ∈ l.found, e.importer ≠ id) :
    ∃ dialect contents leaf,
      fs.readStructure config.maxFileSize id.path = .ok (dialect, contents) ∧
      (∀ s ∈ contents.imports, ∃ r, fs.resolve config.vendorDirs id.path s.source = .ok r) ∧
      leaf.id = id ∧ leaf.dialect = dialect ∧ leaf.exports = contents.exports ∧
      leaf.Groups (fs.leads config.vendorDirs id.path contents.imports) ∧
      targets = leaf.imports.keys ∧ l.Gains l' leaf ∧
      ∀ d : Draft, d.toLedger = l →
        (d.analyze fs config id).1.toLedger = l' ∧ (d.analyze fs config id).2 = .ok targets := by
  obtain ⟨leaf, hleaf, htargets, hledger⟩ := exists_leaf_of_analyze h
  obtain ⟨contents, found, hread, hof, hfound, hparts⟩ := FileSystem.eq_of_analyze hleaf
  have hid : leaf.id = id := FileSystem.id_of_analyze hleaf
  have hnone := congrArg Targets.failure hof
  have hgroups : leaf.Groups found := groups_importRecords (congrArg Leaf.imports hparts)
  refine ⟨leaf.dialect, contents, leaf, hread, Targets.failure_eq_none_iff.mp hnone, hid, rfl,
    congrArg Leaf.exports hparts, FileSystem.leads_eq hof ▸ hgroups, htargets, ?_,
    fun d hd => analyze_draft h hd⟩
  subst hid
  rw [hledger, hfound]
  exact gains_register hnew hfree hgroups.keys

/-! ## A file that is imported in many ways -/

namespace Memory

/-- A module that imports one file three times, under two spellings. -/
def manyText : String :=
  "import a from './lib'; import './style'; import { b as c } from './lib.ts'; import 'pkg'; " ++
    "import * as all from './lib'"

/-- The disk of the module and of the files that it imports. -/
def manyWays : Memory :=
  (((bare none).put ⟨"/lib.ts"⟩ { kind := .file "".toUTF8 }).put ⟨"/main.ts"⟩
    { kind := .file manyText.toUTF8 }).put ⟨"/style.ts"⟩ { kind := .file "".toUTF8 }

/-- The modules of the disk. -/
def manyMain : ModuleId := ⟨⟨"/main.ts"⟩⟩
@[inherit_doc manyMain] def manyLib : ModuleId := ⟨⟨"/lib.ts"⟩⟩
@[inherit_doc manyMain] def manyStyle : ModuleId := ⟨⟨"/style.ts"⟩⟩

end Memory

/-- The file that is imported three times is answered once, where it comes up first, and is queued
once. -/
theorem Ledger.analysis_groups_statements_manyWays : ∃ l' leaf,
    empty.analyze Memory.manyWays.toFileSystem {} Memory.manyMain
      = (l', .ok [Memory.manyLib, Memory.manyStyle]) ∧
    Memory.manyMain ∉ empty.modules.keys ∧ (∀ e ∈ empty.found, e.importer ≠ Memory.manyMain) ∧
    l'.modules.get? Memory.manyMain = some leaf ∧
    leaf.imports.keys = [Memory.manyLib, Memory.manyStyle] ∧
    l'.queue = [⟨Memory.manyMain, Memory.manyLib⟩, ⟨Memory.manyMain, Memory.manyStyle⟩] := by
  have htargets : (empty.analyze Memory.manyWays.toFileSystem {} Memory.manyMain).2.toOption
      = some [Memory.manyLib, Memory.manyStyle] := by decide +kernel
  have hnew : Memory.manyMain ∉ empty.modules.keys := by decide
  have hfree : ∀ e ∈ empty.found, e.importer ≠ Memory.manyMain := by decide
  rcases h : empty.analyze Memory.manyWays.toFileSystem {} Memory.manyMain with ⟨l', r⟩
  rw [h] at htargets
  obtain rfl := eq_ok_of_toOption htargets
  obtain ⟨_, _, leaf, _, _, hid, _, _, _, hkeys, hgains, _⟩ :=
    analysis_groups_statements Memory.manyWays.toFileSystem {} h hnew hfree
  refine ⟨l', leaf, rfl, hnew, hfree, hid ▸ hgains.get?_self, hkeys.symm, ?_⟩
  rw [hgains.queue, ← hkeys, hid]
  rfl

end ImportAtlas
