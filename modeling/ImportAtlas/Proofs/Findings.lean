import ImportAtlas.Analysis
import ImportAtlas.FileSystem.Memory

/-!
# Proofs/Findings — what the analysis of a module says about the files that it imports

An analysis that succeeds answers a leaf of the module it is asked about, and the leaf has a record
for exactly the targets that are reported (`mem_targets_iff`).  Every target is spelled as its own
clean path (`ofPath_of_mem_importsOf`), so that a target may be looked up as it stands.
-/

namespace ImportAtlas

theorem ofPath_clean (p : Path) : ModuleId.ofPath p.clean = .ofPath p :=
  congrArg ModuleId.mk (Path.clean_clean p)

theorem ofPath_path_ofPath (p : Path) : ModuleId.ofPath (ModuleId.ofPath p).path = .ofPath p :=
  ofPath_clean p

/-! ## Records of statements -/

theorem mem_keys_foldl_merge (found : List (ModuleId × ImportStatement))
    (m : OrderedMap ModuleId ImportRecord) (t : ModuleId) :
    t ∈ (found.foldl (fun m (target, statement) =>
        m.update target (ImportRecord.merge statement)) m).keys
      ↔ t ∈ m.keys ∨ t ∈ found.map Prod.fst := by
  induction found generalizing m with
  | nil => simp
  | cons s found ih =>
    rw [List.foldl_cons, ih, OrderedMap.keys_update, List.map_cons, List.mem_cons]
    split
    · rename_i hs
      constructor
      · rintro (h | h)
        · exact Or.inl h
        · exact Or.inr (Or.inr h)
      · rintro (h | rfl | h)
        · exact Or.inl h
        · exact Or.inl hs
        · exact Or.inr h
    · rw [List.mem_append, List.mem_singleton, or_assoc]

/-- There is a record for each file that a statement leads to, and for no other. -/
theorem mem_keys_importRecords {found : List (ModuleId × ImportStatement)} {t : ModuleId} :
    t ∈ (importRecords found).keys ↔ t ∈ found.map Prod.fst := by
  rw [importRecords, mem_keys_foldl_merge, OrderedMap.keys_empty]
  simp

/-- A file is found because a statement names it. -/
theorem Targets.resolve_of_mem_found {resolve : String → Except BuildError Resolution}
    {statements : List ImportStatement} {t : ModuleId} {s : ImportStatement}
    (h : (t, s) ∈ (Targets.of resolve statements).found) :
    s ∈ statements ∧ resolve s.source = .ok (.file t) := by
  induction statements with
  | nil => simp [Targets.of] at h
  | cons s' rest ih =>
    unfold Targets.of at h
    split at h
    · simp at h
    · exact ⟨List.mem_cons_of_mem _ (ih h).1, (ih h).2⟩
    · rename_i hs'
      rcases List.mem_cons.mp h with h | h
      · obtain ⟨rfl, rfl⟩ := Prod.mk.injEq .. ▸ h
        exact ⟨List.mem_cons_self, hs'⟩
      · exact ⟨List.mem_cons_of_mem _ (ih h).1, (ih h).2⟩

namespace FileSystem

variable {fs : FileSystem} {config : Config} {id t : ModuleId} {leaf : Leaf}

/-! ## Leaves -/

/-- **What a successful analysis consists of**: the text is read and parsed, each of its statements
leads somewhere, and the leaf collects the records of those that lead to files. -/
theorem eq_of_analyze (h : (fs.analyze config id).leaf = .ok leaf) :
    ∃ contents found,
      fs.readStructure config.maxFileSize id.path = .ok (leaf.dialect, contents) ∧
      Targets.of (fs.resolve config.vendorDirs id.path) contents.imports = ⟨found, none⟩ ∧
      (fs.analyze config id).targets = found.map Prod.fst ∧
      leaf = ⟨id, leaf.dialect, importRecords found, contents.exports⟩ := by
  unfold analyze at h ⊢
  split at h
  · nomatch h
  · rename_i dialect contents hread
    cases hof : Targets.of (fs.resolve config.vendorDirs id.path) contents.imports with
    | mk found failure =>
      simp only [hof] at h
      cases failure with
      | some e => nomatch h
      | none =>
        obtain rfl := Except.ok.inj h
        exact ⟨contents, found, hread, hof, rfl, rfl⟩

theorem id_of_analyze (h : (fs.analyze config id).leaf = .ok leaf) : leaf.id = id := by
  obtain ⟨_, _, _, _, _, hleaf⟩ := eq_of_analyze h
  rw [hleaf]

/-- The reported targets of a module are those that its leaf has records for. -/
theorem mem_targets_iff (h : (fs.analyze config id).leaf = .ok leaf) :
    t ∈ (fs.analyze config id).targets ↔ t ∈ leaf.imports.keys := by
  obtain ⟨_, _, _, _, htargets, hleaf⟩ := eq_of_analyze h
  rw [htargets, hleaf, mem_keys_importRecords]

/-- Only a file with an extension of the table is analysed with success. -/
theorem isModuleFile_of_analyze (h : (fs.analyze config id).leaf = .ok leaf) :
    id.path.isModuleFile = true := by
  obtain ⟨contents, _, hread, _⟩ := eq_of_analyze h
  obtain ⟨_, _, hdialect, _⟩ := readText_of_readStructure hread
  rw [Path.isModuleFile, hdialect]
  rfl

/-! ## Targets -/

/-- A file that a specifier leads to is spelled as its own clean path. -/
theorem ofPath_of_resolve {vendorDirs : List String} {importer : Path} {specifier : String}
    (h : fs.resolve vendorDirs importer specifier = .ok (.file t)) :
    ModuleId.ofPath t.path = t := by
  unfold resolve at h
  simp only at h
  split at h
  · simp at h
  · split at h
    · obtain rfl : ModuleId.ofPath _ = t := by simpa using h
      exact ofPath_path_ofPath _
    · split at h
      · obtain rfl : ModuleId.ofPath _ = t := by simpa using h
        exact ofPath_path_ofPath _
      · simp at h

/-- The files that a module imports; none if its analysis fails. -/
def importsOf (fs : FileSystem) (config : Config) (id : ModuleId) : List ModuleId :=
  (fs.analyze config id).leaf.toOption.elim [] fun leaf => leaf.imports.keys

/-- The module files among them: those that an exploration goes on to. -/
def modulesFrom (fs : FileSystem) (config : Config) (id : ModuleId) : List ModuleId :=
  (fs.importsOf config id).filter (·.path.isModuleFile)

theorem importsOf_of_analyze (h : (fs.analyze config id).leaf = .ok leaf) :
    fs.importsOf config id = leaf.imports.keys := by
  rw [importsOf, h]
  rfl

theorem exists_leaf_of_mem_importsOf (h : t ∈ fs.importsOf config id) :
    ∃ leaf, (fs.analyze config id).leaf = .ok leaf ∧ t ∈ leaf.imports.keys := by
  rw [importsOf] at h
  cases hleaf : (fs.analyze config id).leaf with
  | ok leaf => exact ⟨leaf, rfl, by rwa [hleaf] at h⟩
  | error e => simp [hleaf, Except.toOption] at h

theorem mem_modulesFrom :
    t ∈ fs.modulesFrom config id ↔ t ∈ fs.importsOf config id ∧ t.path.isModuleFile = true :=
  List.mem_filter

/-- A file is imported because a specifier leads to it. -/
theorem exists_resolve_of_mem_importsOf (h : t ∈ fs.importsOf config id) :
    ∃ specifier, fs.resolve config.vendorDirs id.path specifier = .ok (.file t) := by
  obtain ⟨leaf, hleaf, ht⟩ := exists_leaf_of_mem_importsOf h
  obtain ⟨_, found, _, hof, _, hleaf⟩ := eq_of_analyze hleaf
  rw [hleaf, mem_keys_importRecords] at ht
  obtain ⟨⟨t', s⟩, hs, rfl⟩ := List.mem_map.mp ht
  exact ⟨s.source, (Targets.resolve_of_mem_found (by rw [hof]; exact hs)).2⟩

/-- **A target is spelled as its own clean path.** -/
theorem ofPath_of_mem_importsOf (h : t ∈ fs.importsOf config id) : ModuleId.ofPath t.path = t := by
  obtain ⟨specifier, hresolve⟩ := exists_resolve_of_mem_importsOf h
  exact ofPath_of_resolve hresolve

theorem ofPath_of_mem_modulesFrom : ∀ t ∈ fs.modulesFrom config id, ModuleId.ofPath t.path = t :=
  fun _ ht => ofPath_of_mem_importsOf (mem_modulesFrom.mp ht).1

/-- **Modules that can be built by themselves**: all of them are analysed with success, and they
depend on no others. -/
structure IsSelfContained (fs : FileSystem) (config : Config) (ids : List ModuleId) : Prop where
  isOk : ∀ id ∈ ids, (fs.analyze config id).leaf.isOk = true
  closed : ∀ id ∈ ids, ∀ target ∈ fs.importsOf config id, target ∈ ids

namespace IsSelfContained

variable {ids : List ModuleId}

instance : Decidable (fs.IsSelfContained config ids) :=
  decidable_of_iff ((∀ id ∈ ids, (fs.analyze config id).leaf.isOk = true) ∧
      ∀ id ∈ ids, ∀ target ∈ fs.importsOf config id, target ∈ ids)
    ⟨fun h => ⟨h.1, h.2⟩, fun h => ⟨h.isOk, h.closed⟩⟩

theorem exists_leaf (h : fs.IsSelfContained config ids) (hid : id ∈ ids) :
    ∃ leaf, (fs.analyze config id).leaf = .ok leaf :=
  exists_eq_ok_of_isOk (h.isOk id hid)

end IsSelfContained

end FileSystem

/-! ## Two modules that import each other -/

namespace Memory

/-- A disk with two modules that import each other. -/
def twins : Memory :=
  ((bare none).put ⟨"/a.ts"⟩ { kind := .file "import './b'".toUTF8 }).put ⟨"/b.ts"⟩
    { kind := .file "import './a'".toUTF8 }

/-- The modules of the disk. -/
def twinA : ModuleId := ⟨⟨"/a.ts"⟩⟩
@[inherit_doc twinA] def twinB : ModuleId := ⟨⟨"/b.ts"⟩⟩

theorem importsOf_twinA : twins.toFileSystem.importsOf {} twinA = [twinB] := by decide +kernel

theorem importsOf_twinB : twins.toFileSystem.importsOf {} twinB = [twinA] := by decide +kernel

theorem isSelfContained_twins : twins.toFileSystem.IsSelfContained {} [twinA, twinB] := by
  decide +kernel

theorem exists_leaf_twins : ∀ id, id = twinA ∨ id = twinB →
    ∃ leaf, (twins.toFileSystem.analyze {} id).leaf = .ok leaf :=
  fun _ hid => isSelfContained_twins.exists_leaf (by simpa using hid)

end Memory

end ImportAtlas
