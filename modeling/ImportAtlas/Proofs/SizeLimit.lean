import ImportAtlas.Proofs.Footprint

/-!
# Proofs/SizeLimit — a limit for the size of files rejects, and does nothing else

A file is weighed twice, by what its metadata tell and by its bytes, before anything else is made of it.
So its analysis is the same under all limits that it keeps to (`analyze_eq_of_isWithin`), and under any
other it fails with the limit (`exists_rejection`).  A build under a stricter limit is followed step by
step up to the first module that is rejected (`Run.exists_stop`, `Draft.analyzeEach_of_first`): there it
ends, and without such a module it is the same build (`limits_only_reject`).
-/

namespace ImportAtlas

/-- The same choices with another limit for the size of files. -/
def Config.withLimit (config : Config) (limit : Nat) : Config := { config with maxFileSize := limit }

theorem exists_first_not {α : Type} {p : α → Prop} {l : List α} (h : ¬ ∀ a ∈ l, p a) :
    ∃ before a after, l = before ++ a :: after ∧ (∀ b ∈ before, p b) ∧ ¬ p a := by
  induction l with
  | nil => exact absurd (fun a ha => nomatch ha) h
  | cons a l ih =>
    by_cases ha : p a
    · obtain ⟨before, b, after, rfl, hbefore, hb⟩ := ih fun hl =>
        h (List.forall_mem_cons.mpr ⟨ha, hl⟩)
      exact ⟨a :: before, b, after, rfl, List.forall_mem_cons.mpr ⟨ha, hbefore⟩, hb⟩
    · exact ⟨[], a, l, rfl, by simp, ha⟩

/-! ## Following a build up to a failure -/

/-- **A run is followed up to the first task that fails** where the run went on. -/
theorem Run.exists_stop {σ α ε : Type} {act act' : σ → α → Option (σ × Except ε (List α))}
    {todo calls before after : List α} {s : σ} {a : α} {e : ε} {r : σ × Option ε}
    (h : Run act todo s calls r) (hcalls : calls = before ++ a :: after)
    (hpass : ∀ s b, act s b = none → act' s b = none)
    (hbefore : ∀ b ∈ before, ∀ s, act' s b = act s b)
    (hstop : ∀ s, act s a ≠ none → ∃ s', act' s a = some (s', .error e)) :
    ∃ s', Run act' todo s (before ++ [a]) (s', some e) := by
  -- Up to the stop the states are the same, so that `act'` is asked in the very states that `act` is.
  induction h generalizing before with
  | done => simp at hcalls
  | pass ha _ ih =>
    obtain ⟨s', hrun⟩ := ih hcalls hbefore
    exact ⟨s', .pass (hpass _ _ ha) hrun⟩
  | stop ha =>
    cases before with
    | nil =>
      obtain ⟨rfl, _⟩ := List.cons.inj hcalls
      obtain ⟨s', hs'⟩ := hstop _ fun hnone => nomatch ha.symm.trans hnone
      exact ⟨s', .stop hs'⟩
    | cons b before => simp at hcalls
  | call ha _ ih =>
    cases before with
    | nil =>
      obtain ⟨rfl, _⟩ := List.cons.inj hcalls
      obtain ⟨s', hs'⟩ := hstop _ fun hnone => nomatch ha.symm.trans hnone
      exact ⟨s', .stop hs'⟩
    | cons b before =>
      obtain ⟨rfl, hlater⟩ := List.cons.inj hcalls
      obtain ⟨hfirst, hrest⟩ := List.forall_mem_cons.mp hbefore
      obtain ⟨s', hrun⟩ := ih hlater hrest
      exact ⟨s', .call ((hfirst _).trans ha) hrun⟩

/-- Analyses one after the other end with the first that fails. -/
theorem Draft.analyzeEach_of_first {fs : FileSystem} {config : Config}
    {mark : Draft → ModuleId → Draft} {before after : List ModuleId} {id : ModuleId} {e : BuildError}
    (hbefore : ∀ b ∈ before, ∃ leaf, (fs.analyze config b).leaf = .ok leaf)
    (hfail : (fs.analyze config id).leaf = .error e) (d : Draft) :
    ∃ d', d.analyzeEach fs config mark (before ++ id :: after) = (d', some e) := by
  induction before generalizing d with
  | nil => exact ⟨_, analyzeEach_cons_error hfail⟩
  | cons b before ih =>
    obtain ⟨⟨leaf, hleaf⟩, hbefore⟩ := List.forall_mem_cons.mp hbefore
    rw [List.cons_append, analyzeEach_cons_ok hleaf]
    exact ih hbefore _

namespace FileSystem

variable {fs : FileSystem} {config : Config} {limit limit' size : Nat} {p top : Path} {id : ModuleId}

/-! ## One file -/

/-- **A size that a file is weighed by**: the one that its metadata tell, or the number of its bytes. -/
def HasSize (fs : FileSystem) (p : Path) (size : Nat) : Prop :=
  (∃ m, fs.metadata p = .ok m ∧ m.size = size) ∨ ∃ bytes, fs.contents p = .ok bytes ∧ bytes.size = size

/-- A file that keeps to a limit, by whatever it is weighed. -/
def IsWithin (fs : FileSystem) (limit : Nat) (p : Path) : Prop :=
  ∀ size, fs.HasSize p size → size ≤ limit

theorem not_isWithin_iff : ¬ fs.IsWithin limit p ↔ ∃ size, fs.HasSize p size ∧ limit < size := by
  simp [IsWithin]

theorem IsWithin.mono (h : fs.IsWithin limit p) (hle : limit ≤ limit') : fs.IsWithin limit' p :=
  fun size hsize => (h size hsize).trans hle

/-- A file that keeps to a limit is read as if there were none. -/
theorem readText_of_isWithin (h : fs.IsWithin limit p) : fs.readText limit p =
    match fs.contents p with
    | .error e => .error (.unreadable p e)
    | .ok bytes => (String.fromUTF8? bytes).elim (.error (.invalidUtf8 p)) .ok := by
  have hmetadata : ((fs.metadata p).toOption.filter fun m => m.size > limit) = none := by
    cases hm : fs.metadata p with
    | error e => rfl
    | ok m =>
      have hle : m.size ≤ limit := h _ (.inl ⟨m, hm, rfl⟩)
      simpa [Except.toOption, Option.filter] using hle
  rw [readText, hmetadata]
  cases hc : fs.contents p with
  | error e => rfl
  | ok bytes =>
    have hle : bytes.size ≤ limit := h _ (.inr ⟨bytes, hc, rfl⟩)
    simp only [if_neg (Nat.not_lt.mpr hle)]
    cases String.fromUTF8? bytes <;> rfl

/-- **A file over a limit is rejected**, and a size over the limit is named. -/
theorem exists_readText_rejection (h : ¬ fs.IsWithin limit p) :
    ∃ size, fs.HasSize p size ∧ limit < size ∧
      fs.readText limit p = .error (.fileTooLarge p size limit) := by
  rw [readText]
  cases hm : (fs.metadata p).toOption.filter fun m => m.size > limit with
  | some m =>
    obtain ⟨hm, hsize⟩ := Option.filter_eq_some_iff.mp hm
    exact ⟨m.size, .inl ⟨m, eq_ok_of_toOption hm, rfl⟩, by simpa using hsize, rfl⟩
  | none =>
    obtain ⟨size, ⟨m, hok, rfl⟩ | ⟨bytes, hbytes, rfl⟩, hover⟩ := not_isWithin_iff.mp h
    · simp [hok, Except.toOption, Option.filter, hover] at hm
    · exact ⟨bytes.size, .inr ⟨bytes, hbytes, rfl⟩, hover, by simp [hbytes, hover]⟩

/-- A module over a limit is not analysed. -/
theorem exists_rejection (hmodule : id.path.isModuleFile = true) (h : ¬ fs.IsWithin limit id.path) :
    ∃ size, fs.HasSize id.path size ∧ limit < size ∧
      (fs.analyze (config.withLimit limit) id).leaf = .error (.fileTooLarge id.path size limit) := by
  obtain ⟨size, hsize, hover, hread⟩ := exists_readText_rejection h
  obtain ⟨dialect, hdialect⟩ := Option.isSome_iff_exists.mp hmodule
  refine ⟨size, hsize, hover, ?_⟩
  simp only [analyze, readStructure, hdialect, Config.withLimit, hread]

/-- **A module says the same under all limits that it keeps to.** -/
theorem analyze_eq_of_isWithin (h : fs.IsWithin limit id.path) (h' : fs.IsWithin limit' id.path) :
    fs.analyze (config.withLimit limit) id = fs.analyze (config.withLimit limit') id := by
  simp only [analyze, readStructure, Config.withLimit, readText_of_isWithin h,
    readText_of_isWithin h']

theorem isWithin_of_analyze {leaf : Leaf}
    (h : (fs.analyze (config.withLimit limit) id).leaf = .ok leaf) : fs.IsWithin limit id.path := by
  by_contra hover
  obtain ⟨_, _, _, hrejected⟩ := exists_rejection (isModuleFile_of_analyze h) hover
  nomatch h.symm.trans hrejected

theorem Assembled.isWithin {modules : OrderedMap ModuleId Leaf}
    (h : fs.Assembled (config.withLimit limit) modules) (hid : id ∈ modules.keys) :
    fs.IsWithin limit id.path := by
  obtain ⟨leaf, hleaf⟩ := h.exists_leaf hid
  exact isWithin_of_analyze hleaf

/-! ## Builds -/

/-- **The error of the first file over a limit** among modules in an order: it names the module, a size
that it is weighed by, and the limit. -/
def IsFirstRejection (fs : FileSystem) (limit : Nat) (ids : List ModuleId) (e : BuildError) : Prop :=
  ∃ before id after size, ids = before ++ id :: after ∧ (∀ b ∈ before, fs.IsWithin limit b.path) ∧
    fs.HasSize id.path size ∧ limit < size ∧ e = .fileTooLarge id.path size limit

/-- **A limit does nothing to a build but reject**: what is built under one is built under any larger
one, all that is built keeps to the limit, and where a build under some other limit succeeds, it has the
same result, or rejects the first of the modules of that result that is too large. -/
structure OnlyRejects {β : Type} (fs : FileSystem) (build : Nat → Except BuildError β)
    (ids : β → List ModuleId) : Prop where
  mono : ∀ {limit limit' r}, limit ≤ limit' → build limit = .ok r → build limit' = .ok r
  isWithin : ∀ {limit r}, build limit = .ok r → ∀ id ∈ ids r, fs.IsWithin limit id.path
  eq_or_rejects : ∀ {limit limit' r}, build limit' = .ok r →
    build limit = .ok r ∨ ∃ e, build limit = .error e ∧ fs.IsFirstRejection limit (ids r) e

/-- It is enough to know what becomes of a build under another limit, be its modules within it or not. -/
theorem OnlyRejects.of_isWithin {β : Type} {build : Nat → Except BuildError β}
    {ids : β → List ModuleId}
    (hwithin : ∀ {limit r}, build limit = .ok r → ∀ id ∈ ids r, fs.IsWithin limit id.path)
    (hkeeps : ∀ {limit limit' r}, build limit' = .ok r → (∀ id ∈ ids r, fs.IsWithin limit id.path) →
      build limit = .ok r)
    (hrejects : ∀ {limit limit' r}, build limit' = .ok r →
      ¬ (∀ id ∈ ids r, fs.IsWithin limit id.path) →
        ∃ e, build limit = .error e ∧ fs.IsFirstRejection limit (ids r) e) :
    fs.OnlyRejects build ids where
  mono hle h := hkeeps h fun id hid => (hwithin h id hid).mono hle
  isWithin := hwithin
  eq_or_rejects h := by
    rcases Classical.em (∀ id ∈ ids _, fs.IsWithin _ id.path) with hall | hnot
    · exact .inl (hkeeps h hall)
    · exact .inr (hrejects h hnot)

/-- Modules that are built, but are not all within a limit, have a first one that is rejected. -/
theorem Assembled.exists_first_rejection {modules : OrderedMap ModuleId Leaf}
    (h : fs.Assembled (config.withLimit limit') modules)
    (hover : ¬ ∀ id ∈ modules.keys, fs.IsWithin limit id.path) : ∃ before id after e,
      modules.keys = before ++ id :: after ∧
      (∀ b ∈ before, fs.analyze (config.withLimit limit) b = fs.analyze (config.withLimit limit') b) ∧
      (fs.analyze (config.withLimit limit) id).leaf = .error e ∧
      fs.IsFirstRejection limit modules.keys e := by
  obtain ⟨before, id, after, hkeys, hbefore, hid⟩ := exists_first_not hover
  have hmem : ∀ b ∈ before ++ [id], b ∈ modules.keys := fun b hb => by
    rw [hkeys, List.append_cons]
    exact List.mem_append_left _ hb
  obtain ⟨leaf, hleaf⟩ := h.exists_leaf (hmem id (by simp))
  obtain ⟨size, hsize, hlimit, hrejected⟩ := exists_rejection (isModuleFile_of_analyze hleaf) hid
  refine ⟨before, id, after, _, hkeys, fun b hb => ?_, hrejected,
    before, id, after, size, hkeys, hbefore, hsize, hlimit, rfl⟩
  exact analyze_eq_of_isWithin (hbefore b hb) (h.isWithin (hmem b (by simp [hb])))

/-- **A graph whose modules are not all within a limit is rejected under it.** -/
theorem graphFrom_of_not_isWithin {g : ModuleGraph}
    (hg : fs.graphFrom (config.withLimit limit') top = .ok g)
    (hover : ¬ ∀ id ∈ g.modules.keys, fs.IsWithin limit id.path) :
    ∃ e, fs.graphFrom (config.withLimit limit) top = .error e ∧
      fs.IsFirstRejection limit g.modules.keys e := by
  obtain ⟨before, id, after, e, hkeys, hbefore, hrejected, hfirst⟩ :=
    (assembled_graphFrom hg).exists_first_rejection hover
  obtain ⟨d, hrun⟩ := run_of_graphFrom hg
  obtain ⟨d', hstop⟩ : ∃ d', Run (fs.visitTask (config.withLimit limit)) [.ofPath top] .empty
      (before ++ [id]) (d', some e) := by
    refine hrun.exists_stop hkeys (fun d id hpass => ?_) (fun b hb d => ?_) fun d hnew => ?_
    · exact visitTask_eq_none_iff.mpr (visitTask_eq_none_iff.mp hpass)
    · exact visitTask_eq_of_analyze (hbefore b hb) d
    · have hvisited : id ∉ d.visited := fun hmem => hnew (visitTask_of_visited hmem)
      exact ⟨_, by rw [visitTask_of_new hvisited, hrejected]; rfl⟩
  obtain ⟨calls, hexplore⟩ := fs.exists_run_explore (config.withLimit limit) [.ofPath top] .empty
    (by simpa using ofPath_path_ofPath top)
  refine ⟨e, graphFrom_of_failure ?_, hfirst⟩
  rw [(hstop.unique hexplore).2]

/-- **A walk whose modules are not all within a limit is rejected under it.** -/
theorem walk_of_not_isWithin {t : DependencyTree}
    (ht : fs.walk (config.withLimit limit') top = .ok t)
    (hover : ¬ ∀ id ∈ t.modules.keys, fs.IsWithin limit id.path) :
    ∃ e, fs.walk (config.withLimit limit) top = .error e ∧
      fs.IsFirstRejection limit t.modules.keys e := by
  have hassembled := assembled_walk ht
  have hcheck := checkDir_of_walk ht
  obtain ⟨before, id, after, e, hkeys, hbefore, hrejected, hfirst⟩ :=
    hassembled.exists_first_rejection hover
  obtain ⟨layout, d, rfl, hcharts, _, hfiles, _, hd⟩ := walk_eq_ok ht
  -- A survey weighs no file.
  have hlisting (dir : Path) : fs.listing (config.withLimit limit) dir
      = fs.listing (config.withLimit limit') dir := rfl
  have hsurvey : fs.survey (config.withLimit limit) layout.path
      = ⟨before ++ id :: after, .ok layout⟩ := by
    rw [survey_congr hlisting, survey_of_charts hcharts, ← hkeys, hd, Draft.keys_link, hfiles]
  have hread : ∀ b ∈ before, ∃ leaf, (fs.analyze (config.withLimit limit) b).leaf = .ok leaf := by
    intro b hb
    obtain ⟨leaf, hleaf⟩ := hassembled.exists_leaf (hkeys ▸ List.mem_append_left _ hb)
    exact ⟨leaf, hbefore b hb ▸ hleaf⟩
  obtain ⟨d', hrun⟩ : ∃ d', Draft.empty.analyzeEach fs (config.withLimit limit) (fun d _ => d)
      (before ++ id :: after) = (d', some e) := Draft.analyzeEach_of_first hread hrejected .empty
  refine ⟨e, walk_of_failure (d := d') hcheck ?_, hfirst⟩
  rw [hsurvey, conclude, hrun, unlessFailed]

/-- **The size limit only ever rejects.**  For trees and for graphs: what is built under a limit is built
under any larger one with the same result, and no module of it is larger than the limit, by its metadata
or by its bytes.  Where a build succeeds under one limit, under another one it has the same result, or it
rejects the first module, in the order of their analysis, that is larger than this limit. -/
theorem limits_only_reject (fs : FileSystem) (config : Config) :
    (∀ dir, fs.OnlyRejects (fun limit => fs.dependencyTree (config.withLimit limit) dir)
      fun t => t.modules.keys) ∧
    ∀ entry, fs.OnlyRejects (fun limit => fs.moduleGraph (config.withLimit limit) entry)
      fun g => g.modules.keys := by
  constructor
  · refine fun dir => .of_isWithin (fun h => ?_) (fun h hall => ?_) fun h hover => ?_
    all_goals obtain ⟨top, htop, hwalk⟩ := walk_of_dependencyTree h
    · exact fun id hid => (assembled_walk hwalk).isWithin hid
    · simp only [dependencyTree_of_absolute htop]
      refine walk_of_agree hwalk (fun _ => rfl) rfl rfl fun id hid => ?_
      exact analyze_eq_of_isWithin ((assembled_walk hwalk).isWithin hid) (hall id hid)
    · simp only [dependencyTree_of_absolute htop]
      exact walk_of_not_isWithin hwalk hover
  · refine fun entry => .of_isWithin (fun h => ?_) (fun h hall => ?_) fun h hover => ?_
    all_goals obtain ⟨top, htop, hgraph⟩ := graphFrom_of_moduleGraph h
    · exact fun id hid => (assembled_graphFrom hgraph).isWithin hid
    · simp only [moduleGraph_of_absolute htop]
      refine graphFrom_of_agree hgraph fun id hid => ?_
      exact analyze_eq_of_isWithin ((assembled_graphFrom hgraph).isWithin hid) (hall id hid)
    · simp only [moduleGraph_of_absolute htop]
      exact graphFrom_of_not_isWithin hgraph hover

end FileSystem

end ImportAtlas
