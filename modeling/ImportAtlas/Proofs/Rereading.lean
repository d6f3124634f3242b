import ImportAtlas.Proofs.Relinking
import Mathlib.Data.List.Induction

/-!
# Proofs/Rereading — modules that are analysed again after they have changed

A draft keeps the leaf that the first analysis of a module answers (`get?_ofReadings`), but the edges
of all its analyses (`mem_edges_ofReadings`).  So there is an edge for each record; there is a record
for each edge exactly as long as no later analysis of a module finds a file that the first one has
not found.  Linking goes by the edges: an import is mutual if any analysis of the other module has
found the way back, whether its leaf tells of it or not.
-/

namespace ImportAtlas

/-- The analysis of a module, on the disk as it is at the time. -/
structure Reading where
  fs : FileSystem
  config : Config
  id : ModuleId

namespace Reading

/-- What the analysis answers. -/
def leaf (r : Reading) : Except BuildError Leaf := (r.fs.analyze r.config r.id).leaf

/-- The files that it finds. -/
def imports (r : Reading) : List ModuleId := r.fs.importsOf r.config r.id

/-- The first analysis of a module. -/
def first? (readings : List Reading) (id : ModuleId) : Option Reading :=
  readings.find? fun r => r.id == id

theorem first?_concat (readings : List Reading) (r : Reading) (id : ModuleId) :
    first? (readings ++ [r]) id = (first? readings id).or (if r.id = id then some r else none) := by
  rw [first?, List.find?_append, ← first?, List.find?_singleton]
  simp only [beq_iff_eq]

theorem mem_of_first? {readings : List Reading} {id : ModuleId} {first : Reading}
    (h : first? readings id = some first) : first ∈ readings ∧ first.id = id := by
  rw [first?] at h
  have hid := List.find?_some h
  exact ⟨List.mem_of_find?_eq_some h, beq_iff_eq.mp hid⟩

theorem exists_first? {readings : List Reading} {r : Reading} (h : r ∈ readings) :
    ∃ first, first? readings r.id = some first :=
  Option.isSome_iff_exists.mp (List.find?_isSome.mpr ⟨r, h, beq_self_eq_true r.id⟩)

/-- **No analysis of a module finds a file that its first one has not found.** -/
def FindNothingNew (readings : List Reading) : Prop :=
  ∀ r ∈ readings, ∀ first ∈ first? readings r.id, ∀ t ∈ r.imports, t ∈ first.imports

instance (readings : List Reading) : Decidable (FindNothingNew readings) :=
  inferInstanceAs (Decidable (∀ r ∈ readings, ∀ first ∈ first? readings r.id, ∀ t ∈ r.imports,
    t ∈ first.imports))

end Reading

/-- The draft after some analyses, from nothing. -/
def Draft.ofReadings (readings : List Reading) : Draft :=
  Operation.run (readings.map fun r => .analyze r.fs r.config r.id) .empty

namespace Draft

variable {readings : List Reading} {r first : Reading} {id : ModuleId} {leaf : Leaf} {e : Edge}

theorem ofReadings_concat (readings : List Reading) (r : Reading) :
    ofReadings (readings ++ [r])
      = (ofReadings readings).addFindings r.id (r.fs.analyze r.config r.id) := by
  rw [ofReadings, Operation.run, List.map_append, List.foldl_append]
  rfl

section Readings

variable (h : ∀ r ∈ readings, ∃ leaf, r.leaf = .ok leaf)
include h

/-- **There is an edge for whatever any of the analyses has found.** -/
theorem mem_edges_ofReadings : e ∈ (ofReadings readings).edges ↔
    ∃ r ∈ readings, r.id = e.importer ∧ e.target ∈ r.imports := by
  induction readings using List.reverseRecOn with
  | nil => simp [ofReadings, Operation.run, Draft.empty]
  | append_singleton readings r ih =>
    obtain ⟨hreadings, hr⟩ := List.forall_mem_append.mp h
    obtain ⟨leaf, hleaf⟩ := hr r (List.mem_singleton_self r)
    rw [ofReadings_concat, mem_edges_addFindings hleaf, ih hreadings]
    constructor
    · rintro (⟨s, hs, hedge⟩ | ⟨himporter, htarget⟩)
      · exact ⟨s, List.mem_append_left _ hs, hedge⟩
      · refine ⟨r, List.mem_append_right _ (List.mem_singleton_self r), himporter.symm, ?_⟩
        exact htarget
    · rintro ⟨s, hs, himporter, htarget⟩
      rcases List.mem_append.mp hs with hs | hs
      · exact Or.inl ⟨s, hs, himporter, htarget⟩
      · obtain rfl := List.mem_singleton.mp hs
        exact Or.inr ⟨himporter.symm, htarget⟩

/-- **The leaf of a module is what its first analysis has answered.** -/
theorem get?_ofReadings (id : ModuleId) : (ofReadings readings).modules.get? id
    = (Reading.first? readings id).bind fun r => r.leaf.toOption := by
  induction readings using List.reverseRecOn with
  | nil => rfl
  | append_singleton readings r ih =>
    obtain ⟨hreadings, hr⟩ := List.forall_mem_append.mp h
    obtain ⟨leaf, hleaf⟩ := hr r (List.mem_singleton_self r)
    rw [ofReadings_concat, modules_addFindings hleaf, get?_addModule,
      FileSystem.id_of_analyze hleaf, ih hreadings, Reading.first?_concat]
    cases hfirst : Reading.first? readings id with
    | none =>
      by_cases hid : r.id = id
      · simp [hid, hleaf, Except.toOption]
      · simp [hid, Ne.symm hid]
    | some first =>
      obtain ⟨known, hknown⟩ := hreadings first (Reading.mem_of_first? hfirst).1
      simp [hknown, Except.toOption]

/-- There is a record for what the first analysis has found. -/
theorem isSome_recordOf?_ofReadings : ((ofReadings readings).recordOf? e).isSome = true ↔
    ∃ first, Reading.first? readings e.importer = some first ∧ e.target ∈ first.imports := by
  rw [recordOf?, get?_ofReadings h]
  cases hfirst : Reading.first? readings e.importer with
  | none => simp
  | some first =>
    obtain ⟨leaf, hleaf⟩ := h first (Reading.mem_of_first? hfirst).1
    have himports : first.imports = leaf.imports.keys := FileSystem.importsOf_of_analyze hleaf
    simp only [Option.bind_some, hleaf, Except.toOption, Option.some.injEq, exists_eq_left',
      himports]
    exact OrderedMap.isSome_get?_iff

/-- **Each record has its edge.** -/
theorem mem_edges_of_isSome_recordOf? (he : ((ofReadings readings).recordOf? e).isSome = true) :
    e ∈ (ofReadings readings).edges := by
  obtain ⟨first, hfirst, htarget⟩ := (isSome_recordOf?_ofReadings h).mp he
  obtain ⟨hmem, hid⟩ := Reading.mem_of_first? hfirst
  exact (mem_edges_ofReadings h).mpr ⟨first, hmem, hid, htarget⟩

/-- **Each edge has its record** exactly if no later analysis finds anything new. -/
theorem forall_isSome_recordOf?_iff :
    (∀ e ∈ (ofReadings readings).edges, ((ofReadings readings).recordOf? e).isSome = true) ↔
      Reading.FindNothingNew readings := by
  constructor
  · intro hrecords r hr first hfirst t ht
    have hedge : ⟨r.id, t⟩ ∈ (ofReadings readings).edges :=
      (mem_edges_ofReadings h).mpr ⟨r, hr, rfl, ht⟩
    obtain ⟨first', hfirst', htarget⟩ := (isSome_recordOf?_ofReadings h).mp (hrecords _ hedge)
    obtain rfl := Option.some.inj (hfirst.symm.trans hfirst')
    exact htarget
  · intro hnothing e he
    obtain ⟨r, hr, himporter, htarget⟩ := (mem_edges_ofReadings h).mp he
    obtain ⟨first, hfirst⟩ := Reading.exists_first? hr
    exact (isSome_recordOf?_ofReadings h).mpr
      ⟨first, himporter ▸ hfirst, hnothing r hr first hfirst _ htarget⟩

/-- **An import is mutual** if any analysis of the other module has found the way back. -/
theorem isMutual_link_ofReadings {record : ImportRecord}
    (hrecord : (ofReadings readings).link.recordOf? e = some record) :
    record.isMutual = true ↔ e.flip ∈ (ofReadings readings).edges := by
  rw [recordOf?_link] at hrecord
  obtain ⟨raw, hraw, rfl⟩ := Option.map_eq_some_iff.mp hrecord
  have hedge : (ofReadings readings).hasEdge e = true :=
    hasEdge_eq_true.mpr (mem_edges_of_isSome_recordOf? h (Option.isSome_of_eq_some hraw))
  rw [linkRecord, if_pos hedge]
  exact hasEdge_eq_true

end Readings

/-- **Analyses that are repeated only add edges.**  After any analyses that succeed, each on the disk
as it is at the time, there is an edge for whatever one of them has found; the leaf of a module is
what its first analysis has answered; each record has its edge, and once all is linked it is mutual
if any analysis of the other module has found the way back.  Each edge has its record exactly if no
later analysis of a module finds a file that the first has not found.  If so, an import is mutual if
and only if there is a record of the way back, and no edge to be linked lacks its record. -/
theorem rereadings_add_edges (readings : List Reading)
    (h : ∀ r ∈ readings, ∃ leaf, r.leaf = .ok leaf) :
    (∀ e, e ∈ (ofReadings readings).edges ↔
      ∃ r ∈ readings, r.id = e.importer ∧ e.target ∈ r.imports) ∧
    (∀ id, (ofReadings readings).modules.get? id
      = (Reading.first? readings id).bind fun r => r.leaf.toOption) ∧
    (∀ e, ((ofReadings readings).recordOf? e).isSome = true → e ∈ (ofReadings readings).edges) ∧
    (∀ e record, (ofReadings readings).link.recordOf? e = some record →
      (record.isMutual = true ↔ e.flip ∈ (ofReadings readings).edges)) ∧
    ((∀ e, e ∈ (ofReadings readings).edges ↔ ((ofReadings readings).recordOf? e).isSome = true) ↔
      Reading.FindNothingNew readings) ∧
    (Reading.FindNothingNew readings →
      (∀ e record, (ofReadings readings).link.recordOf? e = some record →
        (record.isMutual = true ↔ ((ofReadings readings).link.recordOf? e.flip).isSome = true)) ∧
      ∀ e ∈ (ofReadings readings).edges,
        ((ofReadings readings).link.recordOf? e).isSome = true) := by
  have hrecords := forall_isSome_recordOf?_iff h
  have hlinked (e : Edge) : ((ofReadings readings).link.recordOf? e).isSome
      = ((ofReadings readings).recordOf? e).isSome := by rw [recordOf?_link, Option.isSome_map]
  refine ⟨fun e => mem_edges_ofReadings h, get?_ofReadings h,
    fun e => mem_edges_of_isSome_recordOf? h, fun e record => isMutual_link_ofReadings h, ?_, ?_⟩
  · rw [← hrecords]
    exact ⟨fun hall e he => (hall e).mp he,
      fun hall e => ⟨hall e, mem_edges_of_isSome_recordOf? h⟩⟩
  · intro hnothing
    refine ⟨fun e record hrecord => ?_, fun e he => ?_⟩
    · rw [isMutual_link_ofReadings h hrecord, hlinked]
      exact ⟨hrecords.mpr hnothing _, mem_edges_of_isSome_recordOf? h⟩
    · rw [hlinked]
      exact hrecords.mpr hnothing e he

end Draft

/-! ## A module that learns of another one -/

namespace Memory

/-- The disk of the twins before the first of them imports the second. -/
def twinsToBe : Memory := twins.put ⟨"/a.ts"⟩ { kind := .file "".toUTF8 }

/-- The first twin has lost its import when it is analysed again. -/
def unlearned : List Reading :=
  [⟨twins.toFileSystem, {}, twinA⟩, ⟨twins.toFileSystem, {}, twinB⟩,
    ⟨twinsToBe.toFileSystem, {}, twinA⟩]

/-- The first twin imports the second only when it is analysed again. -/
def learned : List Reading :=
  [⟨twinsToBe.toFileSystem, {}, twinA⟩, ⟨twinsToBe.toFileSystem, {}, twinB⟩,
    ⟨twins.toFileSystem, {}, twinA⟩]

end Memory

namespace Draft

/-- What is found no more is still in the draft, with its record. -/
theorem rereadings_add_edges_unlearned :
    (∀ r ∈ Memory.unlearned, ∃ leaf, r.leaf = .ok leaf) ∧
      Reading.FindNothingNew Memory.unlearned ∧
      ∀ e ∈ (ofReadings Memory.unlearned).edges,
        ((ofReadings Memory.unlearned).link.recordOf? e).isSome = true := by
  have hok : ∀ r ∈ Memory.unlearned, r.leaf.isOk = true := by decide +kernel
  have hsucceed : ∀ r ∈ Memory.unlearned, ∃ leaf, r.leaf = .ok leaf := fun r hr =>
    exists_eq_ok_of_isOk (hok r hr)
  have hnothing : Reading.FindNothingNew Memory.unlearned := by decide +kernel
  obtain ⟨_, _, _, _, _, hcoherent⟩ := rereadings_add_edges Memory.unlearned hsucceed
  exact ⟨hsucceed, hnothing, (hcoherent hnothing).2⟩

/-- **An edge without a record**: the first analysis of the importer has not found it, a later one
has.  The import the other way is marked as mutual, though the leaf of its target imports nothing. -/
theorem edge_without_record_learned :
    (∀ r ∈ Memory.learned, ∃ leaf, r.leaf = .ok leaf) ∧
      ⟨Memory.twinA, Memory.twinB⟩ ∈ (ofReadings Memory.learned).edges ∧
      (ofReadings Memory.learned).recordOf? ⟨Memory.twinA, Memory.twinB⟩ = none ∧
      ((ofReadings Memory.learned).link.recordOf? ⟨Memory.twinB, Memory.twinA⟩).map
        ImportRecord.isMutual = some true := by
  have hok : ∀ r ∈ Memory.learned, r.leaf.isOk = true := by decide +kernel
  refine ⟨fun r hr => exists_eq_ok_of_isOk (hok r hr), ?_⟩
  decide +kernel

end Draft

end ImportAtlas
