import ImportAtlas.FileSystem.Disk
import ImportAtlas.Proofs.Footprint

/-!
# Proofs/Missing — imports that lead nowhere

A build complains of an import in two ways.  The analysis of a module fails if nothing is found for
one of its specifiers.  And a walk, once all its modules are analysed, looks for module files that are
imported, but neither read nor there; the specifier that it blames is then taken from a record, in
which all statements that lead to the file are merged.  Both ways blame a statement that is written in
a file that was read, and rightly so (`NotFoundJustified`).  Conversely a build that succeeds has a
record of every statement, and what it leads to is there (`KeepsImports`).
-/

namespace ImportAtlas

/-! ## What is looked up is spelled clean -/

namespace Path

variable {p : Path} {name : String}

/-- A name that is looked up from the dot stands for itself. -/
theorem clean_here_child (h : isPlainName name = true) :
    ((Path.mk ".").child name).clean = ⟨name⟩ ∧ (Path.mk name).clean = ⟨name⟩ := by
  have hchild : ((Path.mk ".").child name).clean = ⟨name⟩ := by
    have hhere : (Path.mk ".").isAbsolute = false ∧ (Path.mk ".").route.steps = [] := by
      decide +kernel
    rw [clean, steps_child h, hhere.1, hhere.2]
    simp [Route.path]
  exact ⟨hchild, by rw [← hchild, clean_clean]⟩

/-- **An entry of a clean path is clean**, unless the path is the dot. -/
theorem clean_child_of_ne (hp : p.clean = p) (hne : p ≠ ⟨"."⟩) (h : isPlainName name = true) :
    (p.child name).clean = p.child name := by
  cases habs : p.isAbsolute with
  | true => exact clean_child hp habs h
  | false =>
    have hroute : p.route.path = p := hp
    rw [Route.path, if_neg (by simpa [route] using habs)] at hroute
    split at hroute
    · exact absurd hroute.symm hne
    · rename_i hsteps
      have hcanonical : ∀ x ∈ p.route.steps, x ≠ "" ∧ x ≠ "." ∧ '/' ∉ x.toList := fun x hx =>
        p.canonical_route.forall x (by simpa using hx)
      obtain ⟨c, hc, hslash⟩ := getLast?_intercalate_ne (by simpa using hsteps) hcanonical
      have hlast : p.text.toList.getLast? = some c := by rw [← hroute, hc]
      have hempty : p.text ≠ "" := by
        intro hempty
        rw [hempty] at hlast
        cases hlast
      have hjoin : p.child name = ⟨p.text ++ "/" ++ name⟩ := by
        rw [child, join, if_neg (by simp [isRelative_of_isPlainName h]),
          if_neg (by simp [hempty, hlast, hslash])]
      have hsteps' : p.route.steps ≠ [] := by simpa using hsteps
      rw [clean, steps_child h, habs, hjoin, Route.path, if_neg (by simp), if_neg (by simp),
        String.intercalate_append_of_ne_nil hsteps' (by simp), String.intercalate_singleton]
      exact congrArg (fun front : Path => (⟨front.text ++ "/" ++ name⟩ : Path)) hroute

end Path

variable {fs : FileSystem} {config : Config} {vendorDirs : List String} {p q top importer : Path}
  {specifier : String} {id t : ModuleId} {leaf : Leaf} {d d' : Draft} {modules : OrderedMap ModuleId Leaf}

theorem eq_error_of_map {ε α β : Type} {f : α → β} {x : Except ε α} {e : ε}
    (h : x.map f = .error e) : x = .error e := by
  cases x with
  | ok a => nomatch h
  | error e' => exact congrArg Except.error (Except.error.inj h)

/-- A run fails with the last task that it does. -/
theorem Run.exists_call_of_error {σ α ε : Type} {act : σ → α → Option (σ × Except ε (List α))}
    {todo calls : List α} {s s' : σ} {e : ε} (h : Run act todo s calls (s', some e)) :
    ∃ a ∈ calls, ∃ s, act s a = some (s', .error e) := by
  generalize hr : (s', some e) = r at h
  induction h with
  | done => nomatch congrArg Prod.snd hr
  | pass _ _ ih => exact ih hr
  | @stop a _ s _ _ ha =>
    cases hr
    exact ⟨a, List.mem_singleton_self a, s, ha⟩
  | call _ _ ih =>
    obtain ⟨a, hmem, s, ha⟩ := ih hr
    exact ⟨a, List.mem_cons_of_mem _ hmem, s, ha⟩

/-- Statements fail because one of them does. -/
theorem Targets.exists_of_failure {resolve : String → Except BuildError Resolution}
    {statements : List ImportStatement} {e : BuildError}
    (h : (Targets.of resolve statements).failure = some e) :
    ∃ s ∈ statements, resolve s.source = .error e := by
  obtain ⟨earlier, s, later, rfl, hs, _⟩ := exists_split_of_failure h
  exact ⟨s, List.mem_append_right _ List.mem_cons_self, hs⟩

namespace FileSystem

/-- **A disk that does not contradict itself**: a file that can be read is there, and what is there as
seen from the dot is there under its name alone.  A record of answers need not be so consistent; the
disks of this library are. -/
structure IsConsistent (fs : FileSystem) : Prop where
  showsFiles : fs.ShowsFiles
  bare : ∀ name, Path.isPlainName name = true →
    fs.isPresent ((Path.mk ".").child name) = true → fs.isPresent ⟨name⟩ = true

/-- What is found for a clean path is there under its clean spelling as well. -/
theorem IsConsistent.isPresent_clean (h : fs.IsConsistent) (hp : p.clean = p)
    (hq : q ∈ fs.probes p) (hpresent : fs.isPresent q = true) : fs.isPresent q.clean = true := by
  rcases mem_probes_cases hq with ⟨extension, hextension, rfl⟩ | ⟨extension, hextension, rfl⟩ | rfl
  · have hplain := (isPlainName_probes extension hextension).2
    by_cases hhere : p = ⟨"."⟩
    · subst hhere
      rw [(Path.clean_here_child hplain).1]
      exact h.bare _ hplain hpresent
    · rwa [Path.clean_child_of_ne hp hhere hplain]
  · rwa [Path.clean_appendExtension hp (isPlainName_probes extension hextension).1]
  · rwa [hp]

end FileSystem

theorem Memory.isConsistent (m : Memory) : m.toFileSystem.IsConsistent where
  showsFiles := m.showsFiles
  bare name hname hpresent := by
    obtain ⟨hchild, hclean⟩ := Path.clean_here_child hname
    change (m.find? ((Path.mk ".").child name)).isSome = true at hpresent
    change (m.find? ⟨name⟩).isSome = true
    rwa [find?, hclean, ← hchild]

/-- A path that starts with a dot leads on a disk to where its name leads. -/
theorem Disk.place_here_child {d : Disk} {name : String} {found : Disk.Place}
    (hname : Path.isPlainName name = true)
    (h : d.place ((Path.mk ".").child name) = .ok found) : d.place ⟨name⟩ = .ok found := by
  have hrelative := Path.isRelative_of_isPlainName hname
  have hhere : (Path.mk ".").isAbsolute = false ∧ (Path.mk ".").pieces = ["."] := by decide +kernel
  have hchild : (Path.mk ".").child name = ⟨"." ++ "/" ++ name⟩ := by
    rw [Path.child, Path.join, if_neg (by simp [hrelative]), if_neg (by decide)]
  have habsolute := Path.isAbsolute_child (p := ⟨"."⟩) hname
  have hne : name ≠ "" := by
    rintro rfl
    cases hname
  rw [hhere.1, hchild] at habsolute
  rw [hchild, place] at h
  split at h
  · cases h
  · rename_i hnull
    have hnull' : ¬ name.toList.contains '\x00' = true := fun hnull' => hnull (by simp_all)
    rw [if_neg (by simp)] at h
    split at h
    · cases h
    · rename_i hsize
      have hsize' : ¬ name.utf8ByteSize ≥ maxPathSize := by
        rw [String.utf8ByteSize_append, String.utf8ByteSize_append] at hsize
        omega
      rw [habsolute, Path.pieces_append_slash, hhere.2] at h
      rw [place, if_neg hnull', if_neg (by simpa using hne), if_neg hsize', hrelative, ← h]
      simp [follow]

theorem Disk.isConsistent (d : Disk) : d.toFileSystem.IsConsistent where
  showsFiles := d.showsFiles
  bare name hname hpresent := by
    change (d.metadata ((Path.mk ".").child name)).toOption.isSome = true at hpresent
    change (d.metadata ⟨name⟩).toOption.isSome = true
    unfold metadata at hpresent
    split at hpresent
    · rename_i hplace
      rw [metadata, Disk.place_here_child hname hplace]
      rfl
    · rename_i hplace
      rw [metadata, Disk.place_here_child hname hplace]
      rfl
    all_goals cases hpresent

/-! ## What an error says, and what a result keeps -/

namespace FileSystem

/-- The paths that are tried for the path that a specifier names. -/
def tried (fs : FileSystem) (candidate : Path) : List Path :=
  if candidate.isModuleFile then [candidate] else fs.probes candidate

/-- **A specifier leads nowhere**: it names a path that is not vendored, and nothing that is tried for
the path is a file; if the path is that of a module file, nothing is there at all. -/
structure LeadsNowhere (fs : FileSystem) (vendorDirs : List String) (importer : Path)
    (specifier : String) (path : Path) : Prop where
  relative : isRelative specifier = true
  candidate_eq : candidatePath importer specifier = path
  not_vendored : isVendored importer path vendorDirs = false
  no_file : ∀ p ∈ fs.tried path, fs.isFile p = false
  absent : path.isModuleFile = true → fs.isPresent path = false

/-- **An import is rightly said to be missing**: it is written so in the text of a module file that
the build has read, and it leads nowhere. -/
structure NotFoundJustified (fs : FileSystem) (config : Config) (hasRead : ModuleId → Prop)
    (path : Path) (specifier : String) (importer : Path) : Prop where
  hasRead_importer : hasRead ⟨importer⟩
  isModuleFile : importer.isModuleFile = true
  written : ∃ dialect contents,
    fs.readStructure config.maxFileSize importer = .ok (dialect, contents) ∧
      ∃ s ∈ contents.imports, s.source = specifier
  leads_nowhere : fs.LeadsNowhere config.vendorDirs importer specifier path

/-- **No import is lost**: the modules are those that the build has read, and each statement of them
that names a path which is not vendored has a record; what it leads to is there. -/
structure KeepsImports (fs : FileSystem) (config : Config) (hasRead : ModuleId → Prop)
    (modules : OrderedMap ModuleId Leaf) : Prop where
  hasRead_iff : ∀ id, hasRead id ↔ id ∈ modules.keys
  kept : ∀ id, hasRead id → ∃ dialect contents leaf,
    fs.readStructure config.maxFileSize id.path = .ok (dialect, contents) ∧
      modules.get? id = some leaf ∧
      ∀ s ∈ contents.imports, isRelative s.source = true →
        isVendored id.path (candidatePath id.path s.source) config.vendorDirs = false →
        ∃ target record, fs.resolve config.vendorDirs id.path s.source = .ok (.file target) ∧
          leaf.importOf? target = some record ∧ s.source ∈ record.specifiers ∧
          fs.isPresent target.path = true

/-! ## Analyses that fail -/

theorem readText_ne_moduleNotFound {maxFileSize : Nat} {path : Path} :
    fs.readText maxFileSize p ≠ .error (.moduleNotFound path specifier importer) := by
  intro h
  unfold readText at h
  repeat' split at h
  all_goals nomatch h

/-- A file that cannot be read or parsed is no missing import. -/
theorem readStructure_ne_moduleNotFound {maxFileSize : Nat} {path : Path} :
    fs.readStructure maxFileSize p ≠ .error (.moduleNotFound path specifier importer) := by
  intro h
  unfold readStructure at h
  split at h
  · nomatch h
  · split at h
    · rename_i e htext
      obtain rfl := Except.error.inj h
      exact readText_ne_moduleNotFound htext
    · split at h <;> nomatch h

/-- A resolution fails only if the specifier leads nowhere, and the error says which. -/
theorem leadsNowhere_of_resolve {e : BuildError}
    (h : fs.resolve vendorDirs importer specifier = .error e) :
    e = .moduleNotFound (candidatePath importer specifier) specifier importer ∧
      fs.LeadsNowhere vendorDirs importer specifier (candidatePath importer specifier) := by
  by_cases hlocal : isRelative specifier = true ∧
      isVendored importer (candidatePath importer specifier) vendorDirs = false
  · obtain ⟨hrelative, hvendored⟩ := hlocal
    rw [resolve_of_relative hrelative hvendored] at h
    split at h
    · nomatch h
    · rename_i hmodule
      cases hfound : (fs.probes (candidatePath importer specifier)).find? fs.isFile with
      | some found =>
        rw [hfound] at h
        nomatch h
      | none =>
        rw [hfound] at h
        refine ⟨(Except.error.inj h).symm, hrelative, rfl, hvendored, ?_, fun hm => absurd hm hmodule⟩
        rw [tried, if_neg hmodule]
        simpa using hfound
  · rw [resolve_eq, if_neg hlocal] at h
    nomatch h

/-- **An analysis that misses an import blames a statement of its module.** -/
theorem notFoundJustified_of_analyze {hasRead : ModuleId → Prop} {path : Path}
    (h : (fs.analyze config id).leaf = .error (.moduleNotFound path specifier importer))
    (hread : hasRead id) : fs.NotFoundJustified config hasRead path specifier importer := by
  unfold analyze at h
  split at h
  · rename_i e hstructure
    obtain rfl := Except.error.inj h
    exact absurd hstructure readStructure_ne_moduleNotFound
  · rename_i dialect contents hstructure
    simp only at h
    split at h
    · rename_i e hfailure
      obtain rfl := Except.error.inj h
      obtain ⟨s, hs, hresolve⟩ := Targets.exists_of_failure hfailure
      obtain ⟨heq, hnowhere⟩ := leadsNowhere_of_resolve hresolve
      obtain ⟨rfl, rfl, rfl⟩ := BuildError.moduleNotFound.inj heq
      obtain ⟨_, _, hdialect, _⟩ := readText_of_readStructure hstructure
      exact ⟨hread, by rw [Path.isModuleFile, hdialect]; rfl,
        ⟨dialect, contents, hstructure, s, hs, rfl⟩, hnowhere⟩
    · cases h

/-! ## Builds that fail -/

/-- **The module is analysed on a walk**, with success or as the one whose failure ends the walk. -/
def IsSurveyed (fs : FileSystem) (config : Config) (top : Path) (id : ModuleId) : Prop :=
  ∃ calls r, Run (fs.walkTask config) [.enter top] .empty calls r ∧ .analyze id ∈ calls

/-- The task of an exploration fails with the analysis of its module. -/
theorem leaf_of_visitTask {e : BuildError} (h : fs.visitTask config d id = some (d', .error e)) :
    (fs.analyze config id).leaf = .error e := by
  rw [visitTask_of_new (visited_of_visitTask h).1] at h
  obtain ⟨_, hfound⟩ := Prod.mk.inj (Option.some.inj h)
  exact eq_error_of_map hfound

/-- The task of a walk fails since a directory cannot be listed, or with the analysis of its
module. -/
theorem leaf_of_walkTask {a : WalkStep} {e : BuildError}
    (h : fs.walkTask config d a = some (d', .error e)) :
    (∃ e', e = .fileSystem e') ∨ ∃ id, a = .analyze id ∧ (fs.analyze config id).leaf = .error e := by
  cases a with
  | enter dir =>
    cases hl : fs.listing config dir with
    | error e' =>
      cases (walkTask_enter_error hl).symm.trans h
      exact Or.inl ⟨e', rfl⟩
    | ok l => nomatch (walkTask_enter hl).symm.trans h
  | analyze id =>
    rw [walkTask_analyze] at h
    obtain ⟨_, hfound⟩ := Prod.mk.inj (Option.some.inj h)
    exact Or.inr ⟨id, rfl, eq_error_of_map hfound⟩

/-- A graph that misses an import is right. -/
theorem notFoundJustified_of_graphFrom {path : Path}
    (h : fs.graphFrom config top = .error (.moduleNotFound path specifier importer)) :
    fs.NotFoundJustified config (fs.IsExplored config top) path specifier importer := by
  obtain ⟨calls, hrun⟩ := fs.exists_run_explore config [.ofPath top] .empty
    (by simpa using ofPath_path_ofPath top)
  rw [graphFrom] at h
  simp only at h
  split at h
  · rename_i d e hexplore
    obtain rfl := Except.error.inj h
    rw [hexplore] at hrun
    obtain ⟨id, hid, d, htask⟩ := hrun.exists_call_of_error
    exact notFoundJustified_of_analyze (leaf_of_visitTask htask) ⟨calls, _, hrun, hid⟩
  · split at h <;> cases h

/-- A run that does not fail has analysed all its modules, and no failure was left behind them. -/
theorem eq_of_conclude {ids : List ModuleId} {failure : Option BuildError}
    (h : fs.conclude config ids failure d = (d', none)) :
    d.analyzeEach fs config (fun d _ => d) ids = (d', none) ∧ failure = none := by
  rw [conclude] at h
  cases hrun : d.analyzeEach fs config (fun d _ => d) ids with
  | mk d'' failure' =>
    rw [hrun] at h
    cases failure' with
    | some e => cases congrArg Prod.snd h
    | none =>
      obtain ⟨rfl, rfl⟩ := Prod.mk.inj h
      exact ⟨rfl, rfl⟩

theorem exists_layout_of_surveyFailure (h : surveyFailure (fs.survey config top).layout = none) :
    ∃ layout, (fs.survey config top).layout = .ok layout := by
  cases hlayout : (fs.survey config top).layout with
  | ok layout => exact ⟨layout, rfl⟩
  | error e =>
    rw [hlayout] at h
    cases h

/-- **How a walk ends whose run does not fail**: with a tree, or with an import of its draft that
dangles. -/
theorem walk_of_conclude (hdir : fs.checkDir top = .ok ())
    (h : fs.conclude config (fs.survey config top).files
      (surveyFailure (fs.survey config top).layout) .empty = (d, none)) :
    ∃ layout : Layout, fs.walk config top
      = (d.danglingEdge? fs).elim (.ok ⟨layout.tree d.link.modules, d.link.modules⟩)
          fun e => .error (d.danglingError e) := by
  obtain ⟨hrun, hfailure⟩ := eq_of_conclude h
  obtain ⟨layout, hlayout⟩ := exists_layout_of_surveyFailure hfailure
  have hmap : (Except.ok layout).mapError BuildError.fileSystem = .ok layout := rfl
  refine ⟨layout, ?_⟩
  rw [walk, hdir]
  change Draft.empty.analyzeAll fs config (fs.survey config top).files >>= _ = _
  rw [Draft.analyzeAll_eq, hrun]
  cases hdangling : d.danglingEdge? fs <;>
    simp only [hlayout, bind, Except.bind, hmap, hdangling] <;> rfl

/-- A walk that does not start at a directory fails with just that. -/
theorem walk_of_checkDir {e : BuildError} (hdir : fs.checkDir top = .error e) :
    fs.walk config top = .error e := by
  rw [walk, hdir]
  rfl

/-- The draft of a run that does not fail is sound, and its modules are those that are analysed. -/
theorem sound_of_conclude (h : fs.conclude config (fs.survey config top).files
      (surveyFailure (fs.survey config top).layout) .empty = (d, none)) :
    d.Sound fs config ∧ ∀ id, fs.IsSurveyed config top id ↔ id ∈ d.modules.keys := by
  obtain ⟨calls, hrun⟩ := fs.exists_run_survey config top .empty
  rw [h] at hrun
  obtain ⟨_, hanalyzed⟩ := mem_run_iff hrun
  have hsurveyed (id : ModuleId) :
      fs.IsSurveyed config top id ↔ fs.IsWalkedModule config top id := by
    rw [← hanalyzed]
    constructor
    · rintro ⟨calls', r, hrun', hid⟩
      rwa [(hrun.unique hrun').1] at hid
    · exact fun hid => ⟨calls, _, hrun, hid⟩
  obtain ⟨heach, hfailure⟩ := eq_of_conclude h
  obtain ⟨layout, hlayout⟩ := exists_layout_of_surveyFailure hfailure
  obtain ⟨rfl, hcharts, hfiles⟩ := charts_of_survey hlayout
  rw [hfiles] at heach
  obtain ⟨hsound, hkeys⟩ :=
    Draft.sound_of_run (fun _ _ => rfl) (fun hd => hd) hcharts.nodup_allFiles heach
  refine ⟨hsound, fun id => ?_⟩
  rw [hsurveyed, hkeys, hcharts.mem_allFiles]

/-- The record of an import, as its analysis leaves it, has the source of a statement at its head. -/
theorem exists_statement_of_firstSpecifier (hleaf : (fs.analyze config id).leaf = .ok leaf)
    {record : ImportRecord} (hrecord : leaf.importOf? t = some record) :
    ∃ dialect contents,
      fs.readStructure config.maxFileSize id.path = .ok (dialect, contents) ∧
        ∃ s ∈ contents.imports, s.source = record.firstSpecifier ∧
          fs.resolve config.vendorDirs id.path s.source = .ok (.file t) := by
  obtain ⟨contents, hread, _, _, himport⟩ := importOf?_of_analyze hleaf
  refine ⟨leaf.dialect, contents, hread, ?_⟩
  rw [himport] at hrecord
  cases hto : fs.statementsTo config.vendorDirs id.path t contents.imports with
  | nil => nomatch hto ▸ hrecord
  | cons s rest =>
    have hs : s ∈ fs.statementsTo config.vendorDirs id.path t contents.imports :=
      hto ▸ List.mem_cons_self
    rw [statementsTo, List.mem_filter, beq_iff_eq, targetOf?_eq_some] at hs
    rw [hto, ImportRecord.collect_eq (List.cons_ne_nil s rest)] at hrecord
    obtain rfl := Option.some.inj hrecord
    refine ⟨s, hs.1, ?_, hs.2⟩
    rw [ImportRecord.firstSpecifier, List.map_cons, List.eraseDups_cons, List.headD_cons]

/-- **What a specifier leads to is there**, unless it names a module file and hence the disk is not
asked. -/
theorem IsConsistent.isPresent_of_resolve (h : fs.IsConsistent)
    (hresolve : fs.resolve vendorDirs importer specifier = .ok (.file t)) :
    fs.isPresent t.path = true ∨
      t.path.isModuleFile = true ∧ candidatePath importer specifier = t.path := by
  have hclean : (candidatePath importer specifier).clean = candidatePath importer specifier :=
    clean_candidatePath
  rcases file_of_resolve hresolve with ⟨hmodule, rfl⟩ | ⟨found, hfound, hfile, rfl⟩
  · rw [ModuleId.ofPath, hclean]
    exact Or.inr ⟨hmodule, rfl⟩
  · exact Or.inl (h.isPresent_clean hclean hfound (isFile_iff.mp hfile).1)

/-- **An import that dangles is rightly said to be missing**, although its specifier is read off a
record: all statements of the record name the missing file, since a search would have found it. -/
theorem IsConsistent.notFoundJustified_of_dangling (hfs : fs.IsConsistent) (hd : d.Sound fs config)
    {hasRead : ModuleId → Prop} (hread : ∀ id ∈ d.modules.keys, hasRead id) {e : Edge}
    (he : d.danglingEdge? fs = some e) : ∃ specifier,
      d.danglingError e = .moduleNotFound e.target.path specifier e.importer.path ∧
        fs.NotFoundJustified config hasRead e.target.path specifier e.importer.path := by
  have hedge := List.find?_some he
  simp only [Bool.and_eq_true, Bool.not_eq_true'] at hedge
  obtain ⟨⟨_, hmodule⟩, habsent⟩ := hedge
  have hmem : e ∈ d.edges := List.mem_of_find?_eq_some he
  obtain ⟨leaf, record, hleaf, hrecord, hrecordOf⟩ := hd.exists_record hmem
  obtain ⟨dialect, contents, hstructure, s, hs, hsource, hresolve⟩ :=
    exists_statement_of_firstSpecifier hleaf hrecord
  obtain ⟨hrelative, hvendored⟩ := not_isVendored_of_resolve hresolve
  have hcandidate : candidatePath e.importer.path s.source = e.target.path := by
    rcases hfs.isPresent_of_resolve hresolve with hpresent | ⟨_, hcandidate⟩
    · nomatch habsent.symm.trans hpresent
    · exact hcandidate
  have hnowhere : fs.LeadsNowhere config.vendorDirs e.importer.path s.source e.target.path := by
    refine ⟨hrelative, hcandidate, hcandidate ▸ hvendored, ?_, fun _ => habsent⟩
    rw [tried, if_pos hmodule]
    simp [isFile, habsent]
  rw [Draft.danglingError, hrecordOf, Option.map_some, Option.getD_some, ← hsource]
  exact ⟨_, rfl, hread _ (hd.mem_edges.mp hmem).1, isModuleFile_of_analyze hleaf,
    ⟨dialect, contents, hstructure, s, hs, rfl⟩, hnowhere⟩

/-- **How a walk fails**: it does not start at a directory, one of them cannot be listed, the analysis
of a module fails, or an import of its draft dangles. -/
theorem walk_eq_error_cases {e : BuildError} (h : fs.walk config top = .error e) :
    fs.checkDir top = .error e ∨ (∃ source, e = .fileSystem source) ∨
      (∃ id, fs.IsSurveyed config top id ∧ (fs.analyze config id).leaf = .error e) ∨
      ∃ (d : Draft) (edge : Edge), d.Sound fs config ∧
        (∀ id ∈ d.modules.keys, fs.IsSurveyed config top id) ∧ d.danglingEdge? fs = some edge ∧
          e = d.danglingError edge := by
  cases hdir : fs.checkDir top with
  | error e' =>
    obtain rfl := Except.error.inj ((walk_of_checkDir hdir).symm.trans h)
    exact Or.inl rfl
  | ok _ =>
    obtain ⟨⟨d, failure⟩, hend⟩ : ∃ r, fs.conclude config (fs.survey config top).files
      (surveyFailure (fs.survey config top).layout) .empty = r := ⟨_, rfl⟩
    cases failure with
    | some e' =>
      obtain rfl := Except.error.inj ((walk_of_failure hdir hend).symm.trans h)
      obtain ⟨calls, hrun⟩ := fs.exists_run_survey config top .empty
      rw [hend] at hrun
      obtain ⟨a, hmem, d, htask⟩ := hrun.exists_call_of_error
      rcases leaf_of_walkTask htask with hsource | ⟨id, rfl, hleaf⟩
      · exact Or.inr (Or.inl hsource)
      · exact Or.inr (Or.inr (Or.inl ⟨id, ⟨calls, _, hrun, hmem⟩, hleaf⟩))
    | none =>
      obtain ⟨_, hwalk⟩ := walk_of_conclude hdir hend
      obtain ⟨hsound, hread⟩ := sound_of_conclude hend
      cases hdangling : d.danglingEdge? fs with
      | none =>
        rw [hdangling] at hwalk
        nomatch hwalk.symm.trans h
      | some edge =>
        rw [hdangling, Option.elim_some] at hwalk
        exact Or.inr (Or.inr (Or.inr ⟨d, edge, hsound, fun id => (hread id).mpr, hdangling,
          Except.error.inj (h.symm.trans hwalk)⟩))

/-- How a walk fails to start at a directory. -/
theorem checkDir_eq_error_cases {e : BuildError} (h : fs.checkDir top = .error e) :
    e = .notADirectory top ∨ ∃ source, e = .fileSystem source := by
  unfold checkDir at h
  split at h
  · split at h
    · nomatch h
    · exact Or.inl (Except.error.inj h).symm
  · split at h
    · exact Or.inl (Except.error.inj h).symm
    · exact Or.inr ⟨_, (Except.error.inj h).symm⟩

/-- A walk that misses an import is right. -/
theorem IsConsistent.notFoundJustified_of_walk (hfs : fs.IsConsistent) {path : Path}
    (h : fs.walk config top = .error (.moduleNotFound path specifier importer)) :
    fs.NotFoundJustified config (fs.IsSurveyed config top) path specifier importer := by
  rcases walk_eq_error_cases h with
    hdir | ⟨_, heq⟩ | ⟨id, hid, hleaf⟩ | ⟨d, edge, hsound, hread, hdangling, heq⟩
  · rcases checkDir_eq_error_cases hdir with heq | ⟨_, heq⟩ <;> nomatch heq
  · nomatch heq
  · exact notFoundJustified_of_analyze hleaf hid
  · obtain ⟨_, herror, hjustified⟩ := hfs.notFoundJustified_of_dangling hsound hread hdangling
    obtain ⟨rfl, rfl, rfl⟩ := BuildError.moduleNotFound.inj (heq.trans herror)
    exact hjustified

/-! ## Builds that succeed -/

/-- A module that a build has read is there. -/
theorem IsConsistent.isPresent_of_mem_keys (hfs : fs.IsConsistent)
    (h : fs.Assembled config modules) (hid : id ∈ modules.keys) : fs.isPresent id.path = true := by
  obtain ⟨leaf, hleaf⟩ := h.exists_leaf hid
  obtain ⟨bytes, hbytes⟩ := contents_of_analyze hleaf
  exact hfs.showsFiles _ bytes hbytes

/-- **A finished build keeps its imports**, if the module files that are imported are there. -/
theorem IsConsistent.keepsImports (hfs : fs.IsConsistent) (h : fs.Assembled config modules)
    {hasRead : ModuleId → Prop} (hread : ∀ id, hasRead id ↔ id ∈ modules.keys)
    (hpresent : ∀ id ∈ modules.keys, ∀ t ∈ fs.modulesFrom config id, fs.isPresent t.path = true) :
    fs.KeepsImports config hasRead modules := by
  refine ⟨hread, fun id hid => ?_⟩
  have hmem := (hread id).mp hid
  obtain ⟨raw, hraw⟩ := h.exists_leaf hmem
  obtain ⟨leaf, hget⟩ := OrderedMap.exists_get?_of_mem hmem
  obtain ⟨dialect, contents, hstructure, hresolves⟩ := exists_leaf_iff.mp ⟨raw, hraw⟩
  refine ⟨dialect, contents, leaf, hstructure, hget, fun s hs hrelative hvendored => ?_⟩
  obtain ⟨target, hresolve⟩ : ∃ target,
      fs.resolve config.vendorDirs id.path s.source = .ok (.file target) := by
    obtain ⟨r, hr⟩ := hresolves s hs
    cases r with
    | file target => exact ⟨target, hr⟩
    | external other => exact absurd hr (resolve_ne_external hrelative hvendored)
  obtain ⟨leaf', record, hget', hrecord, hsource⟩ :=
    h.exists_record_of_statement hmem hstructure hs hresolve
  obtain rfl : leaf = leaf' := Option.some.inj (hget.symm.trans hget')
  refine ⟨target, record, hresolve, hrecord, hsource, ?_⟩
  rcases hfs.isPresent_of_resolve hresolve with hthere | ⟨hmodule, _⟩
  · exact hthere
  · have himport := mem_importsOf_of_resolve hraw hstructure hs hresolve
    exact hpresent id hmem target (mem_modulesFrom.mpr ⟨himport, hmodule⟩)

theorem IsConsistent.keepsImports_of_graphFrom {g : ModuleGraph} (hfs : fs.IsConsistent)
    (h : fs.graphFrom config top = .ok g) :
    fs.KeepsImports config (fs.IsExplored config top) g.modules := by
  have hassembled := assembled_graphFrom h
  refine hfs.keepsImports hassembled (fun id => isExplored_iff h) fun id hid t ht => ?_
  obtain ⟨himport, hmodule⟩ := mem_modulesFrom.mp ht
  exact hfs.isPresent_of_mem_keys hassembled (mem_keys_of_import h hid himport hmodule)

theorem IsConsistent.keepsImports_of_walk {t : DependencyTree} (hfs : fs.IsConsistent)
    (h : fs.walk config top = .ok t) :
    fs.KeepsImports config (fs.IsSurveyed config top) t.modules := by
  have hassembled := assembled_walk h
  obtain ⟨d, hend, hmodules⟩ := conclude_of_walk h
  have hread (id : ModuleId) : fs.IsSurveyed config top id ↔ id ∈ t.modules.keys := by
    rw [hmodules, Draft.keys_link]
    exact (sound_of_conclude hend).2 id
  refine hfs.keepsImports hassembled hread fun id hid target htarget => ?_
  rcases present_of_walk h hid htarget with hmem | hpresent
  · exact hfs.isPresent_of_mem_keys hassembled hmem
  · exact hpresent

/-- **A missing import is reported exactly if there is one.**  On a disk that does not contradict
itself, whatever the mode of a build: if it fails with `moduleNotFound`, then the importing file was
read, the specifier is written in it, the specifier names the path of the error outside the vendor
directories, and nothing that is tried for this path is a file.  And if the build succeeds, each
statement of its modules that names a path which is not vendored has a record, and the target of the
record is there. -/
theorem not_found_sound_and_complete (fs : FileSystem) (config : Config) (hfs : fs.IsConsistent) :
    (∀ dir path specifier importer,
      fs.dependencyTree config dir = .error (.moduleNotFound path specifier importer) →
      ∃ top, fs.absolute dir = .ok top ∧
        fs.NotFoundJustified config (fs.IsSurveyed config top) path specifier importer) ∧
    (∀ entry path specifier importer,
      fs.moduleGraph config entry = .error (.moduleNotFound path specifier importer) →
      ∃ top, fs.absolute entry = .ok top ∧
        fs.NotFoundJustified config (fs.IsExplored config top) path specifier importer) ∧
    (∀ dir t, fs.dependencyTree config dir = .ok t →
      ∃ top, fs.absolute dir = .ok top ∧
        fs.KeepsImports config (fs.IsSurveyed config top) t.modules) ∧
    ∀ entry g, fs.moduleGraph config entry = .ok g →
      ∃ top, fs.absolute entry = .ok top ∧
        fs.KeepsImports config (fs.IsExplored config top) g.modules := by
  refine ⟨fun dir path specifier importer h => ?_, fun entry path specifier importer h => ?_,
    fun dir t h => ?_, fun entry g h => ?_⟩
  · cases htop : fs.absolute dir with
    | error e =>
      rw [dependencyTree, htop] at h
      cases h
    | ok top =>
      rw [dependencyTree_of_absolute htop] at h
      exact ⟨top, rfl, hfs.notFoundJustified_of_walk h⟩
  · cases htop : fs.absolute entry with
    | error e =>
      rw [moduleGraph, htop] at h
      cases h
    | ok top =>
      rw [moduleGraph_of_absolute htop] at h
      exact ⟨top, rfl, notFoundJustified_of_graphFrom h⟩
  · obtain ⟨top, htop, hwalk⟩ := walk_of_dependencyTree h
    exact ⟨top, htop, hfs.keepsImports_of_walk hwalk⟩
  · obtain ⟨top, htop, hgraph⟩ := graphFrom_of_moduleGraph h
    exact ⟨top, htop, hfs.keepsImports_of_graphFrom hgraph⟩

/-- The walk of a disk with an import that dangles fails with this import. -/
theorem dependencyTree_tangled : Memory.tangled.toFileSystem.dependencyTree {} ⟨"/"⟩
    = .error (.moduleNotFound ⟨"/gone.ts"⟩ "./gone.ts" ⟨"/c.ts"⟩) := by
  have hlisting : Memory.tangled.toFileSystem.listing {} ⟨"/"⟩
      = .ok ⟨[], [Memory.tangledA, Memory.tangledB, Memory.tangledC]⟩ := by
    have hnames : Memory.tangled.toFileSystem.names ⟨"/"⟩ = .ok ["a.ts", "b.ts", "c.ts"] := by
      decide +kernel
    rw [listing_of_sorted hnames (by decide)]
    decide +kernel
  have hcharts : Memory.tangled.toFileSystem.Charts {}
      (.mk ⟨"/"⟩ [] [Memory.tangledA, Memory.tangledB, Memory.tangledC]) := .mk hlisting (by simp)
  have hsurvey : Memory.tangled.toFileSystem.survey {} ⟨"/"⟩ = _ := survey_of_charts hcharts
  obtain ⟨d, hd, hdangling⟩ : ∃ d, Draft.empty.analyzeEach Memory.tangled.toFileSystem {}
      (fun d _ => d) [Memory.tangledA, Memory.tangledB, Memory.tangledC] = (d, none) ∧
      (d.danglingEdge? Memory.tangled.toFileSystem).map d.danglingError
        = some (.moduleNotFound ⟨"/gone.ts"⟩ "./gone.ts" ⟨"/c.ts"⟩) := by
    refine ⟨_, (Prod.eta _).symm.trans (congrArg (Prod.mk _) ?_), ?_⟩ <;> decide +kernel
  have hend : Memory.tangled.toFileSystem.conclude {}
      (Memory.tangled.toFileSystem.survey {} ⟨"/"⟩).files
      (surveyFailure (Memory.tangled.toFileSystem.survey {} ⟨"/"⟩).layout) .empty = (d, none) := by
    have hfiles : (Layout.mk ⟨"/"⟩ [] [Memory.tangledA, Memory.tangledB, Memory.tangledC]).allFiles
        = [Memory.tangledA, Memory.tangledB, Memory.tangledC] := by simp [Layout.allFiles]
    simp only [hsurvey, conclude, hfiles, hd]
    rfl
  obtain ⟨edge, hedge, herror⟩ := Option.map_eq_some_iff.mp hdangling
  obtain ⟨_, hwalk⟩ := walk_of_conclude (by decide +kernel) hend
  rw [hedge, Option.elim_some, herror] at hwalk
  exact (dependencyTree_of_absolute (by decide +kernel)).trans hwalk

/-- The missing import of one disk is reported, and the imports of another one are kept. -/
theorem not_found_sound_and_complete_tangled :
    Memory.tangled.toFileSystem.IsConsistent ∧
    Memory.tangled.toFileSystem.NotFoundJustified {}
      (Memory.tangled.toFileSystem.IsSurveyed {} ⟨"/"⟩) ⟨"/gone.ts"⟩ "./gone.ts" ⟨"/c.ts"⟩ ∧
    ∃ t, Memory.twins.toFileSystem.dependencyTree {} ⟨"/"⟩ = .ok t ∧
      Memory.twins.toFileSystem.KeepsImports {}
        (Memory.twins.toFileSystem.IsSurveyed {} ⟨"/"⟩) t.modules := by
  have hroot (fs : FileSystem) {top : Path} (htop : fs.absolute ⟨"/"⟩ = .ok top) :
      top = ⟨"/"⟩ := by
    rw [absolute, if_pos (by decide)] at htop
    rw [← Except.ok.inj htop]
    decide +kernel
  obtain ⟨hsound, _⟩ :=
    not_found_sound_and_complete Memory.tangled.toFileSystem {} Memory.tangled.isConsistent
  obtain ⟨top, htop, hjustified⟩ := hsound _ _ _ _ dependencyTree_tangled
  obtain ⟨_, _, hcomplete, _⟩ :=
    not_found_sound_and_complete Memory.twins.toFileSystem {} Memory.twins.isConsistent
  obtain ⟨t, ht, _⟩ := Memory.tree_twins
  obtain ⟨top', htop', hkeeps⟩ := hcomplete _ t ht
  obtain rfl := hroot _ htop
  obtain rfl := hroot _ htop'
  exact ⟨Memory.tangled.isConsistent, hjustified, t, ht, hkeeps⟩

end FileSystem

end ImportAtlas
