import ImportAtlas.Proofs.Containment
import ImportAtlas.Proofs.Records

/-!
# Proofs/Omission — an import among the modules of a walk that is lost

A walk passes vendor directories by; a resolution looks for their names in all of the path that a
specifier names, the last component included, and before an extension is put behind it.  So the two
disagree about a file beside which there could be a vendor directory: `import './lib'` may mean
`lib.ts`, and it is external as soon as `lib` is the name of a vendor directory.  This is the only
disagreement (`FileSystem.isVendored_iff_isTakenForVendor`), and all other imports among the modules
of a walk have their records.
-/

namespace ImportAtlas

variable {fs : FileSystem} {config : Config} {dir top : Path} {t : DependencyTree}
  {id target : ModuleId} {specifier : String} {modules : OrderedMap ModuleId Leaf}

/-- **A path that is taken for a vendor directory**: its last component is the name of one, although
the file that it leads to lies beside the path and not in it. -/
def IsTakenForVendor (vendorDirs : List String) (candidate target : Path) : Prop :=
  (∃ name ∈ vendorDirs, candidate.fileName? = some name) ∧
    target.directories = candidate.directories

theorem eq_or_prefix_dropLast {α : Type} {front l : List α} {x : α} (h : front ++ [x] <+: l) :
    front ++ [x] = l ∨ front ++ [x] <+: l.dropLast := by
  rcases List.eq_nil_or_concat' l with rfl | ⟨rest, last, rfl⟩
  · simp at h
  · rw [List.dropLast_concat]
    exact List.prefix_concat_iff.mp h

namespace FileSystem

/-- Among the modules of a walk a resolution sees a vendor directory only at the end of the path that
a specifier names. -/
theorem isTakenForVendor_of_isVendored (hid : fs.IsWalkedModule config top id)
    (htarget : fs.IsWalkedModule config top target)
    (h : fs.resolve [] id.path specifier = .ok (.file target))
    (hvendored : isVendored id.path (candidatePath id.path specifier) config.vendorDirs = true) :
    IsTakenForVendor config.vendorDirs (candidatePath id.path specifier) target.path := by
  have htop : top.route.components <+: id.path.directories := by
    obtain ⟨names, _, heq⟩ := hid.directories_eq
    exact heq ▸ List.prefix_append ..
  have hnot : ¬ VendorsWithin config.vendorDirs id.path.directories
      (candidatePath id.path specifier).components := by
    rw [← Path.components_parent hid.clean_eq, ← isVendored_eq_false_iff, hvendored]
    exact Bool.noConfusion
  simp only [VendorsWithin, not_forall] at hnot
  obtain ⟨front, name, hfront, hname, hnot⟩ := hnot
  -- A vendor directory on the way to the target stands where the walk starts, hence on the way to
  -- the importing file as well.
  have houtside : ¬ front ++ [.name name] <+: target.path.directories := fun hon =>
    hnot ((htarget.vendorsWithin front name hon hname).trans htop)
  rcases directories_of_resolve h with hin | hbeside
  · exact absurd (hin ▸ hfront) houtside
  · refine ⟨⟨name, hname, Path.fileName?_eq_some_iff.mpr ?_⟩, hbeside⟩
    rcases eq_or_prefix_dropLast hfront with hlast | habove
    · rw [Path.directories, ← hlast, List.dropLast_concat]
    · rw [hbeside] at houtside
      exact absurd habove houtside

/-- A path that is taken for a vendor directory leads out of the walk. -/
theorem isVendored_of_isTakenForVendor (hid : fs.IsWalkedModule config top id)
    (htarget : fs.IsWalkedModule config top target)
    (h : IsTakenForVendor config.vendorDirs (candidatePath id.path specifier) target.path) :
    isVendored id.path (candidatePath id.path specifier) config.vendorDirs = true := by
  obtain ⟨⟨name, hname, hlast⟩, hbeside⟩ := h
  obtain ⟨names, hvendor, heq⟩ := hid.directories_eq
  obtain ⟨names', _, heq'⟩ := htarget.directories_eq
  refine Decidable.byContradiction fun hnot => ?_
  rw [Bool.not_eq_true, isVendored_eq_false_iff, Path.components_parent hid.clean_eq, heq] at hnot
  have hcomponents := Path.fileName?_eq_some_iff.mp hlast
  rw [← hbeside, heq'] at hcomponents
  rw [hcomponents] at hnot
  have hfront := hnot _ name (List.prefix_refl _) hname
  rw [List.append_assoc, List.prefix_append_right_inj] at hfront
  have hmem : Path.Component.name name ∈ names.map Path.Component.name :=
    hfront.subset (by simp)
  obtain ⟨other, hother, hsame⟩ := List.mem_map.mp hmem
  obtain rfl : other = name := by simpa using hsame
  exact hvendor other hother hname

/-- **What a walk loses**: a specifier that would lead from one of its modules to another is external
exactly if it names a path that is taken for a vendor directory. -/
theorem resolve_eq_external_iff (hid : fs.IsWalkedModule config top id)
    (htarget : fs.IsWalkedModule config top target)
    (h : fs.resolve [] id.path specifier = .ok (.file target)) :
    fs.resolve config.vendorDirs id.path specifier = .ok (.external specifier) ↔
      IsTakenForVendor config.vendorDirs (candidatePath id.path specifier) target.path := by
  have hrelative := (not_isVendored_of_resolve h).1
  constructor
  · intro hexternal
    refine isTakenForVendor_of_isVendored hid htarget h (Decidable.byContradiction fun hnot => ?_)
    rw [resolve_eq, if_pos ⟨hrelative, Bool.not_eq_true _ ▸ hnot⟩, h] at hexternal
    nomatch hexternal
  · intro htaken
    have hvendored := isVendored_of_isTakenForVendor hid htarget htaken
    rw [resolve_eq, if_neg (by simp [hvendored])]

/-- A statement that leads from a module of a build to a file has its part in the record of the
file. -/
theorem Assembled.exists_record_of_statement (h : fs.Assembled config modules)
    (hid : id ∈ modules.keys) {dialect : Dialect} {contents : ModuleStructure}
    (hread : fs.readStructure config.maxFileSize id.path = .ok (dialect, contents))
    {s : ImportStatement} (hs : s ∈ contents.imports)
    (hresolve : fs.resolve config.vendorDirs id.path s.source = .ok (.file target)) :
    ∃ leaf record, modules.get? id = some leaf ∧ leaf.importOf? target = some record ∧
      s.source ∈ record.specifiers := by
  obtain ⟨raw, hraw, hget⟩ := h id hid
  obtain ⟨contents', hread', _, _, himport⟩ := importOf?_of_analyze hraw
  obtain rfl : contents' = contents := by simp_all
  have hto : s ∈ fs.statementsTo config.vendorDirs id.path target contents'.imports := by
    rw [statementsTo, List.mem_filter, beq_iff_eq, targetOf?_eq_some]
    exact ⟨hs, hresolve⟩
  obtain ⟨record, hrecord, hmem⟩ := ImportRecord.exists_collect_of_mem hto
  refine ⟨_, fs.linkRecord config modules.keys ⟨raw.id, target⟩ record, hget, ?_, hmem⟩
  rw [importOf?_linkLeaf, himport, hrecord, Option.map_some]

/-- **All imports among the modules of a walk are kept but those that are taken for vendor
directories.**  Say that a statement of a module would lead to another module of the walk if there
were no vendor directories.  Then it is external exactly if the path that it names is taken for a
vendor directory; and if not, its module has a record of the other one with the source of the
statement. -/
theorem walk_keeps_imports (fs : FileSystem) (config : Config) {dir : Path} {t : DependencyTree}
    (h : fs.dependencyTree config dir = .ok t) :
    ∀ id ∈ t.modules.keys, ∀ target ∈ t.modules.keys, ∀ dialect contents,
      fs.readStructure config.maxFileSize id.path = .ok (dialect, contents) →
      ∀ s ∈ contents.imports, fs.resolve [] id.path s.source = .ok (.file target) →
      (fs.resolve config.vendorDirs id.path s.source = .ok (.external s.source) ↔
        IsTakenForVendor config.vendorDirs (candidatePath id.path s.source) target.path) ∧
      (¬ IsTakenForVendor config.vendorDirs (candidatePath id.path s.source) target.path →
        ∃ leaf record, t.modules.get? id = some leaf ∧ leaf.importOf? target = some record ∧
          s.source ∈ record.specifiers) := by
  intro id hid target htarget dialect contents hread s hs hresolve
  obtain ⟨top, _, hwalk⟩ := walk_of_dependencyTree h
  have hexternal := resolve_eq_external_iff ((mem_keys_walk hwalk).mp hid)
    ((mem_keys_walk hwalk).mp htarget) hresolve
  refine ⟨hexternal, fun hnot => ?_⟩
  refine (assembled_walk hwalk).exists_record_of_statement hid hread hs ?_
  rw [resolve_eq] at hexternal ⊢
  split
  · exact hresolve
  · rename_i hvendored
    exact absurd (hexternal.mp (if_neg hvendored)) hnot

end FileSystem

/-! ## A file beside which there could be a vendor directory -/

namespace Memory

/-- A disk with two modules that import each other, one of them with the name of a vendor
directory. -/
def lookalike : Memory :=
  ((bare none).put ⟨"/lib.ts"⟩ { kind := .file "import './main'".toUTF8 }).put ⟨"/main.ts"⟩
    { kind := .file "import './lib'".toUTF8 }

/-- The modules of the disk. -/
def moduleLib : ModuleId := ⟨⟨"/lib.ts"⟩⟩
@[inherit_doc moduleLib] def moduleMain : ModuleId := ⟨⟨"/main.ts"⟩⟩

theorem imports_lookalike :
    (lookalike.toFileSystem.readStructure passLib.maxFileSize moduleLib.path).toOption.map
      (fun r => r.2.imports) = some [⟨"./main", []⟩] ∧
    (lookalike.toFileSystem.readStructure passLib.maxFileSize moduleMain.path).toOption.map
      (fun r => r.2.imports) = some [⟨"./lib", []⟩] := by
  decide +kernel

/-- The tree of the disk. -/
theorem tree_lookalike : ∃ t, lookalike.toFileSystem.dependencyTree passLib ⟨"/"⟩ = .ok t ∧
    t.modules.keys = [moduleLib, moduleMain] := by
  have hlisting : lookalike.toFileSystem.listing passLib ⟨"/"⟩
      = .ok ⟨[], [moduleLib, moduleMain]⟩ := by
    have hnames : lookalike.toFileSystem.names ⟨"/"⟩ = .ok ["lib.ts", "main.ts"] := by
      decide +kernel
    rw [FileSystem.listing_of_sorted hnames (by decide)]
    decide +kernel
  have hself : lookalike.toFileSystem.IsSelfContained passLib [moduleLib, moduleMain] := by
    decide +kernel
  exact hself.exists_walk_of_listing hlisting rfl

end Memory

namespace FileSystem

theorem exists_readStructure {maxFileSize : Nat} {p : Path} {statements : List ImportStatement}
    (h : (fs.readStructure maxFileSize p).toOption.map (fun r => r.2.imports) = some statements) :
    ∃ dialect contents, fs.readStructure maxFileSize p = .ok (dialect, contents) ∧
      contents.imports = statements := by
  cases hread : fs.readStructure maxFileSize p with
  | error e => simp [hread, Except.toOption] at h
  | ok r => exact ⟨r.1, r.2, rfl, by simpa [hread, Except.toOption] using h⟩

/-- The import of `./main` is kept: no vendor directory has that name. -/
theorem walk_keeps_imports_lookalike : ∃ t leaf record,
    Memory.lookalike.toFileSystem.dependencyTree Memory.passLib ⟨"/"⟩ = .ok t ∧
    t.modules.get? Memory.moduleLib = some leaf ∧
    leaf.importOf? Memory.moduleMain = some record ∧ "./main" ∈ record.specifiers := by
  obtain ⟨t, ht, hkeys⟩ := Memory.tree_lookalike
  obtain ⟨dialect, contents, hread, himports⟩ := exists_readStructure Memory.imports_lookalike.1
  have hresolve : Memory.lookalike.toFileSystem.resolve [] Memory.moduleLib.path "./main"
      = .ok (.file Memory.moduleMain) := by decide +kernel
  have hname : (candidatePath Memory.moduleLib.path "./main").fileName? = some "main" := by
    decide +kernel
  obtain ⟨_, hkept⟩ := walk_keeps_imports Memory.lookalike.toFileSystem Memory.passLib ht
    Memory.moduleLib (by simp [hkeys]) Memory.moduleMain (by simp [hkeys]) dialect contents hread
    ⟨"./main", []⟩ (by simp [himports]) hresolve
  obtain ⟨leaf, record, hleaf, hrecord, hmem⟩ := hkept (by
    rintro ⟨⟨name, hvendor, hlast⟩, _⟩
    rw [hname] at hlast
    obtain rfl : "main" = name := Option.some.inj hlast
    exact absurd hvendor (by decide))
  exact ⟨t, leaf, record, ht, hleaf, hrecord, hmem⟩

/-- **The import of `./lib` is lost**: it would lead to a module of the walk, which has no vendor
directory at all, and yet there is no record of it. -/
theorem import_lost_lookalike : ∃ t dialect contents leaf,
    Memory.lookalike.toFileSystem.dependencyTree Memory.passLib ⟨"/"⟩ = .ok t ∧
    t.modules.keys = [Memory.moduleLib, Memory.moduleMain] ∧
    Memory.lookalike.toFileSystem.readStructure Memory.passLib.maxFileSize Memory.moduleMain.path
      = .ok (dialect, contents) ∧ contents.imports = [⟨"./lib", []⟩] ∧
    isRelative "./lib" = true ∧
    Memory.lookalike.toFileSystem.resolve [] Memory.moduleMain.path "./lib"
      = .ok (.file Memory.moduleLib) ∧
    t.modules.get? Memory.moduleMain = some leaf ∧
    leaf.importOf? Memory.moduleLib = none := by
  obtain ⟨t, ht, hkeys⟩ := Memory.tree_lookalike
  obtain ⟨dialect, contents, hread, himports⟩ := exists_readStructure Memory.imports_lookalike.2
  obtain ⟨leaf, hleaf⟩ := OrderedMap.exists_get?_of_mem
    (show Memory.moduleMain ∈ t.modules.keys by simp [hkeys])
  refine ⟨t, dialect, contents, leaf, ht, hkeys, hread, himports, by decide +kernel,
    by decide +kernel, hleaf, OrderedMap.get?_eq_none_iff.mpr ?_⟩
  rw [(Builds.tree ht).assembled.keys_imports hleaf]
  decide +kernel

end FileSystem

end ImportAtlas
