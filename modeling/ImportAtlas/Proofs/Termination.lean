import ImportAtlas.Command.Progress
import ImportAtlas.Proofs.Tasks
import ImportAtlas.Proofs.Walk

/-!
# Proofs/Termination — builds come to an end, and to everything once

A walk works off its tasks as an exploration does, but without marks: its tasks stand apart from
each other, and a directory gives way to what lies in it.  So no two steps of a run lead to one place
(`pairwise_ne_of_run`), and a run that does not fail comes to all that is below (`mem_run_iff`).  It
ends as the survey of the directory says (`exists_run_survey`), since each directory that is listed
is deeper than the one that lists it.
-/

namespace ImportAtlas

open WalkStep

variable {fs : FileSystem} {config : Config} {d d' : Draft} {id : ModuleId} {top q : Path}

/-! ## Walks -/

/-- What a listing leads to: first the directories are entered, then the modules are analysed. -/
def Listing.tasks (l : Listing) : List WalkStep :=
  l.subdirs.map .enter ++ l.files.map .analyze

namespace WalkStep

/-- Where the step leads. -/
def path : WalkStep → Path
  | enter dir => dir
  | analyze id => id.path

/-- The directory that is entered. -/
def dir? : WalkStep → Option Path
  | enter dir => some dir
  | analyze _ => none

/-- The module that is analysed. -/
def module? : WalkStep → Option ModuleId
  | enter _ => none
  | analyze id => some id

/-- Neither of two steps leads to a place at or below that of the other. -/
def Apart (a b : WalkStep) : Prop :=
  ¬ a.path.route.steps <+: b.path.route.steps ∧ ¬ b.path.route.steps <+: a.path.route.steps

variable {a b c : WalkStep}

theorem Apart.symm (h : a.Apart b) : b.Apart a := And.symm h

theorem Apart.of_below (h : a.Apart b) (hc : a.path.route.steps <+: c.path.route.steps) :
    c.Apart b := by
  refine ⟨fun hcb => h.1 (hc.trans hcb), fun hbc => ?_⟩
  rcases List.prefix_or_prefix_of_prefix hc hbc with hab | hba
  · exact h.1 hab
  · exact h.2 hba

theorem apart_of_names {steps : List String} {x y : String}
    (ha : a.path.route.steps = steps ++ [x]) (hb : b.path.route.steps = steps ++ [y])
    (hne : x ≠ y) : a.Apart b := by
  have hdiffer {x y : String} (h : steps ++ [x] <+: steps ++ [y]) : x = y := by
    simpa using h.eq_of_length (by simp)
  rw [Apart, ha, hb]
  exact ⟨fun h => hne (hdiffer h), fun h => hne (hdiffer h).symm⟩

end WalkStep

namespace FileSystem

/-- The task of a walk: a directory is listed, and what is found in it comes next; a module is
analysed. -/
def walkTask (fs : FileSystem) (config : Config) (d : Draft) :
    WalkStep → Option (Draft × Except BuildError (List WalkStep))
  | .enter dir => some (d, ((fs.listing config dir).map Listing.tasks).mapError .fileSystem)
  | .analyze id =>
    let (d', found) := d.analyze fs config id
    some (d', found.map fun _ => [])

section Steps

variable {todo calls more : List WalkStep} {r : Draft × Option BuildError} {a : WalkStep}
  {dir : Path} {l : Listing} {ids : List ModuleId}

theorem walkTask_enter (h : fs.listing config dir = .ok l) :
    fs.walkTask config d (.enter dir) = some (d, .ok l.tasks) := by
  rw [walkTask, h]
  rfl

theorem walkTask_enter_error {e : FsError} (h : fs.listing config dir = .error e) :
    fs.walkTask config d (.enter dir) = some (d, .error (.fileSystem e)) := by
  rw [walkTask, h]
  rfl

theorem walkTask_analyze : fs.walkTask config d (.analyze id)
    = some (d.addFindings id (fs.analyze config id),
        (fs.analyze config id).leaf.map fun _ => []) := by
  cases hleaf : (fs.analyze config id).leaf with
  | error e =>
    rw [walkTask, Draft.analyze_eq_error hleaf]
    rfl
  | ok leaf =>
    rw [walkTask, Draft.analyze_eq_ok hleaf]
    rfl

theorem walkTask_ne_none (d : Draft) (a : WalkStep) : fs.walkTask config d a ≠ none := by
  cases a <;> exact nofun

/-- **A step that is done with success** enters a directory, which leaves the draft alone and gives
rise to what the listing says, or analyses a module, which gives rise to nothing. -/
theorem walkTask_eq_ok_cases (h : fs.walkTask config d a = some (d', .ok more)) :
    (∃ dir l, a = .enter dir ∧ fs.listing config dir = .ok l ∧ d' = d ∧ more = l.tasks) ∨
      ∃ id leaf, a = .analyze id ∧ (fs.analyze config id).leaf = .ok leaf ∧
        d' = d.addFindings id (fs.analyze config id) ∧ more = [] := by
  cases a with
  | enter dir =>
    cases hl : fs.listing config dir with
    | error e => nomatch (walkTask_enter_error hl).symm.trans h
    | ok l =>
      cases (walkTask_enter hl).symm.trans h
      exact Or.inl ⟨dir, l, rfl, hl, rfl, rfl⟩
  | analyze id =>
    rw [walkTask_analyze] at h
    obtain ⟨hd, hfound⟩ := Prod.mk.inj (Option.some.inj h)
    cases hleaf : (fs.analyze config id).leaf with
    | error e =>
      rw [hleaf] at hfound
      nomatch hfound
    | ok leaf =>
      rw [hleaf] at hfound
      exact Or.inr ⟨id, leaf, rfl, hleaf, hd.symm, (Except.ok.inj hfound).symm⟩

/-! ### No place is come to twice -/

/-- The tasks of a listing lie apart from each other, each one step below the directory. -/
theorem apart_of_listing (h : fs.listing config dir = .ok l) : l.tasks.Pairwise Apart ∧
    ∀ t ∈ l.tasks, ∃ name, t.path.route.steps = dir.route.steps ++ [name] := by
  obtain ⟨⟨names, hsorted, hsubdirs, hnames⟩, names', hsorted', hfiles, hnames'⟩ :=
    names_of_listing_eq h
  have hdir : ∀ name ∈ names, (WalkStep.enter (dir.child name)).path.route.steps
      = dir.route.steps ++ [name] := fun name hname =>
    congrArg Path.Route.steps (Path.steps_child ((hnames name).mp hname).1.isPlainName)
  have hmodule : ∀ name ∈ names', (WalkStep.analyze (.ofPath (dir.child name))).path.route.steps
      = dir.route.steps ++ [name] := fun name hname => ((hnames' name).mp hname).steps_eq
  rw [Listing.tasks, hsubdirs, hfiles, List.map_map, List.map_map]
  constructor
  · refine List.pairwise_append.mpr ⟨List.pairwise_map.mpr ?_, List.pairwise_map.mpr ?_, ?_⟩
    · exact hsorted.imp_of_mem fun ha hb hlt =>
        apart_of_names (hdir _ ha) (hdir _ hb) (String.ne_of_lt hlt)
    · exact hsorted'.imp_of_mem fun ha hb hlt =>
        apart_of_names (hmodule _ ha) (hmodule _ hb) (String.ne_of_lt hlt)
    · simp only [List.mem_map, Function.comp_apply]
      rintro _ ⟨x, hx, rfl⟩ _ ⟨y, hy, rfl⟩
      refine apart_of_names (hdir x hx) (hmodule y hy) ?_
      -- One name cannot be that of a directory and of a file.
      rintro rfl
      obtain ⟨⟨_, data, _, _, hdata, hisDir⟩, _⟩ := (hnames x).mp hx
      obtain ⟨_, data', _, _, hdata', hisFile, _⟩ := (hnames' x).mp hy
      obtain rfl : data = data' := Except.ok.inj (hdata.symm.trans hdata')
      nomatch hisDir.symm.trans hisFile
  · simp only [List.mem_append, List.mem_map, Function.comp_apply]
    rintro t (⟨name, hname, rfl⟩ | ⟨name, hname, rfl⟩)
    · exact ⟨name, hdir name hname⟩
    · exact ⟨name, hmodule name hname⟩

/-- A step of a walk: what a task gives rise to lies apart, and strictly below it. -/
theorem apart_of_walkTask (h : fs.walkTask config d a = some (d', .ok more)) :
    more.Pairwise Apart ∧
      ∀ t ∈ more, ∃ name, t.path.route.steps = a.path.route.steps ++ [name] := by
  rcases walkTask_eq_ok_cases h with ⟨dir, l, rfl, hl, _, rfl⟩ | ⟨id, _, rfl, _, _, rfl⟩
  · exact apart_of_listing hl
  · simp

/-- **A task that is done leaves all tasks apart**, and whatever it gives rise to is below it. -/
theorem pairwise_apart_of_walkTask (h : fs.walkTask config d a = some (d', .ok more))
    (htodo : (a :: todo).Pairwise Apart) : (more ++ todo).Pairwise Apart ∧
      ∀ t ∈ more, a.path.route.steps <+: t.path.route.steps := by
  obtain ⟨hfirst, hrest⟩ := List.pairwise_cons.mp htodo
  obtain ⟨hmore, hbelow⟩ := apart_of_walkTask h
  have hunder : ∀ t ∈ more, a.path.route.steps <+: t.path.route.steps := by
    intro t ht
    obtain ⟨name, hname⟩ := hbelow t ht
    exact ⟨[name], hname.symm⟩
  exact ⟨List.pairwise_append.mpr
    ⟨hmore, hrest, fun t ht b hb => (hfirst b hb).of_below (hunder t ht)⟩, hunder⟩

/-- **No two steps of a walk lead to the same place**: its tasks always lie apart. -/
theorem pairwise_ne_of_run (h : Run (fs.walkTask config) todo d calls r)
    (htodo : todo.Pairwise Apart) :
    (∀ c ∈ calls, ∃ t ∈ todo, t.path.route.steps <+: c.path.route.steps) ∧
      calls.Pairwise fun a b => a.path.route.steps ≠ b.path.route.steps := by
  induction h with
  | done => simp
  | pass ha _ _ => exact absurd ha (walkTask_ne_none _ _)
  | @stop a _ _ _ _ _ => simp
  | @call a todo more calls _ _ _ ha _ ih =>
    obtain ⟨hapart, hunder⟩ := pairwise_apart_of_walkTask ha htodo
    obtain ⟨hcalls, hdistinct⟩ := ih hapart
    refine ⟨List.forall_mem_cons.mpr ⟨⟨a, by simp⟩, fun c hc => ?_⟩,
      List.pairwise_cons.mpr ⟨fun c hc heq => ?_, hdistinct⟩⟩
    · obtain ⟨t, ht, htc⟩ := hcalls c hc
      rcases List.mem_append.mp ht with ht | ht
      · exact ⟨a, List.mem_cons_self, (hunder t ht).trans htc⟩
      · exact ⟨t, List.mem_cons_of_mem _ ht, htc⟩
    · obtain ⟨t, ht, htc⟩ := hcalls c hc
      rw [← heq] at htc
      rcases List.mem_append.mp ht with ht | ht
      · obtain ⟨name, hname⟩ := (apart_of_walkTask ha).2 t ht
        have hlength := htc.length_le
        rw [hname, List.length_append, List.length_singleton] at hlength
        omega
      · exact ((List.pairwise_cons.mp htodo).1 t ht).2 htc

/-! ### A walk comes to an end -/

/-- The failure that is left when the modules of a survey are analysed: that of a directory. -/
def surveyFailure {α : Type} (found : Except FsError α) : Option BuildError :=
  match found with
  | .ok _ => none
  | .error e => some (.fileSystem e)

/-- What becomes of a draft when modules are analysed, the failure of a directory coming last. -/
def conclude (fs : FileSystem) (config : Config) (ids : List ModuleId) (failure : Option BuildError)
    (d : Draft) : Draft × Option BuildError :=
  unlessFailed (d.analyzeEach fs config (fun d _ => d) ids) fun d' => (d', failure)

theorem conclude_append (failure : Option BuildError) (ids' : List ModuleId) :
    fs.conclude config (ids ++ ids') failure d
      = unlessFailed (fs.conclude config ids none d) (fs.conclude config ids' failure) := by
  simp only [conclude, Draft.analyzeEach_append]
  cases d.analyzeEach fs config (fun d _ => d) ids with
  | mk d' failure' => cases failure' <;> rfl

theorem unlessFailed_conclude (e : BuildError) (rest : Draft → Draft × Option BuildError) :
    unlessFailed (fs.conclude config ids (some e) d) rest = fs.conclude config ids (some e) d := by
  rw [conclude]
  cases d.analyzeEach fs config (fun d _ => d) ids with
  | mk d' failure' => cases failure' <;> rfl

theorem exists_run_analyze (ids : List ModuleId) (d : Draft) :
    ∃ calls, Run (fs.walkTask config) (ids.map .analyze) d calls (fs.conclude config ids none d) := by
  induction ids generalizing d with
  | nil => exact ⟨[], .done⟩
  | cons id ids ih =>
    have htask : fs.walkTask config d (.analyze id) = _ := walkTask_analyze
    cases hleaf : (fs.analyze config id).leaf with
    | error e =>
      rw [hleaf] at htask
      rw [conclude, Draft.analyzeEach_cons_error hleaf]
      exact ⟨_, .stop htask⟩
    | ok leaf =>
      rw [hleaf] at htask
      rw [conclude, Draft.analyzeEach_cons_ok hleaf]
      obtain ⟨calls, later⟩ := ih (d.addFindings id (fs.analyze config id))
      exact ⟨_, .call htask later⟩

/-- Directories are gone through one after the other, up to the first that cannot be surveyed. -/
theorem exists_run_sequence {ps : List Path}
    (hps : ∀ p ∈ ps, ∀ d, ∃ calls, Run (fs.walkTask config) [.enter p] d calls
      (fs.conclude config (fs.survey config p).files (surveyFailure (fs.survey config p).layout) d))
    (d : Draft) :
    ∃ calls, Run (fs.walkTask config) (ps.map .enter) d calls
      (fs.conclude config (Survey.sequence (ps.map (fs.survey config))).1
        (surveyFailure (Survey.sequence (ps.map (fs.survey config))).2) d) := by
  induction ps generalizing d with
  | nil => exact ⟨[], .done⟩
  | cons p ps ih =>
    obtain ⟨hp, hps⟩ := List.forall_mem_cons.mp hps
    have key := Run.exists_append (hp d) (ih hps)
    rw [List.map_cons, List.map_cons, Survey.sequence]
    cases hlayout : (fs.survey config p).layout with
    | error e =>
      rw [hlayout, surveyFailure, unlessFailed_conclude] at key
      exact key
    | ok layout =>
      rw [hlayout, surveyFailure, ← conclude_append] at key
      cases hrest : (Survey.sequence (ps.map (fs.survey config))).2 with
      | error e =>
        rw [hrest] at key
        simp only [hrest]
        exact key
      | ok layouts =>
        rw [hrest] at key
        simp only [hrest]
        exact key

/-- **A walk comes to an end**, and it ends with what its survey says. -/
theorem exists_run_survey (fs : FileSystem) (config : Config) (dir : Path) (d : Draft) :
    ∃ calls, Run (fs.walkTask config) [.enter dir] d calls
      (fs.conclude config (fs.survey config dir).files
        (surveyFailure (fs.survey config dir).layout) d) := by
  induction dir using FileSystem.survey.induct fs config generalizing d with
  | case1 dir e hlisting =>
    rw [survey_of_error hlisting]
    exact ⟨_, .stop (walkTask_enter_error hlisting)⟩
  | case2 dir l hlisting ih =>
    obtain ⟨calls, later⟩ := Run.exists_append
      (exists_run_sequence (fun sub hsub d => ih ⟨sub, hsub⟩ d) d)
      (exists_run_analyze l.files)
    refine ⟨.enter dir :: calls, .call (walkTask_enter hlisting) ?_⟩
    rw [List.append_nil, Listing.tasks, survey_of_listing hlisting, Survey.ofListing]
    cases hsequence : Survey.sequence (l.subdirs.map (fs.survey config)) with
    | mk files result =>
      rw [hsequence] at later
      cases result with
      | error e =>
        rw [surveyFailure, unlessFailed_conclude] at later
        exact later
      | ok layouts =>
        rw [surveyFailure, ← conclude_append] at later
        exact later

/-! ### What a walk comes to -/

theorem DirAt.concat {names : List String} {name : String} (h : fs.DirAt top names q)
    (hdir : fs.HasDir q name) : fs.DirAt top (names ++ [name]) (q.child name) := by
  induction h with
  | here => exact .inside hdir .here
  | inside hfirst _ ih => exact .inside hfirst (ih hdir)

theorem IsWalked.concat {name : String} (h : fs.IsWalked config top q) (hdir : fs.HasDir q name)
    (hname : config.isVendorDir name = false) : fs.IsWalked config top (q.child name) := by
  obtain ⟨names, h, hnames⟩ := h
  exact ⟨_, h.concat hdir, List.forall_mem_append.mpr ⟨hnames, by simpa using hname⟩⟩

/-- The steps that are to be found below a directory. -/
def IsStepBelow (fs : FileSystem) (config : Config) (top : Path) : WalkStep → Prop
  | .enter q => fs.IsWalked config top q
  | .analyze id => fs.IsWalkedModule config top id

theorem isStepBelow_of_run (h : Run (fs.walkTask config) [.enter top] d calls r) :
    ∀ a ∈ calls, fs.IsStepBelow config top a := by
  refine h.forall_mem (by simpa [IsStepBelow] using isWalked_iff.mpr (Or.inl rfl)) ?_
  intro d d' a more ha hbelow
  rcases walkTask_eq_ok_cases ha with ⟨dir, l, rfl, hl, _, rfl⟩ | ⟨id, _, rfl, _, _, rfl⟩
  · obtain ⟨⟨names, _, hsubdirs, hnames⟩, names', _, hfiles, hnames'⟩ := names_of_listing_eq hl
    simp only [Listing.tasks, hsubdirs, hfiles, List.forall_mem_append, List.forall_mem_map]
    refine ⟨fun name hname => ?_, fun name hname => ?_⟩
    · obtain ⟨hdir, hvendor⟩ := (hnames name).mp hname
      exact IsWalked.concat hbelow hdir hvendor
    · exact ⟨dir, name, hbelow, (hnames' name).mp hname, rfl⟩
  · simp

/-- **A walk whose run does not fail comes to everything**: to each directory that is to be entered,
and to each module that is to be analysed. -/
theorem mem_run_iff (h : Run (fs.walkTask config) [.enter top] d calls (d', none)) :
    (∀ q, .enter q ∈ calls ↔ fs.IsWalked config top q) ∧
      ∀ id, .analyze id ∈ calls ↔ fs.IsWalkedModule config top id := by
  have hbelow := isStepBelow_of_run h
  obtain ⟨htop, hclosed⟩ := h.closed_of_success walkTask_ne_none
  have hlisted (q : Path) (hq : .enter q ∈ calls) :
      ∃ l, fs.listing config q = .ok l ∧ ∀ b ∈ l.tasks, b ∈ calls := by
    obtain ⟨_, _, more, ha, hmore⟩ := hclosed _ hq
    rcases walkTask_eq_ok_cases ha with ⟨_, l, heq, hl, _, rfl⟩ | ⟨_, _, heq, _⟩
    · cases heq
      exact ⟨l, hl, hmore⟩
    · nomatch heq
  have henter (q : Path) (hq : fs.IsWalked config top q) : .enter q ∈ calls := by
    obtain ⟨names, hq, hvendor⟩ := hq
    have hstart : .enter top ∈ calls := htop _ List.mem_cons_self
    clear htop h hbelow
    induction hq with
    | here => exact hstart
    | @inside dir q name names hdir _ ih =>
      obtain ⟨hname, hvendor⟩ := List.forall_mem_cons.mp hvendor
      obtain ⟨l, hl, htasks⟩ := hlisted dir hstart
      obtain ⟨⟨listed, _, hsubdirs, hlistedNames⟩, _⟩ := names_of_listing_eq hl
      refine ih hvendor (htasks _ (List.mem_append_left _ (List.mem_map_of_mem ?_)))
      rw [hsubdirs]
      exact List.mem_map_of_mem ((hlistedNames name).mpr ⟨hdir, hname⟩)
  refine ⟨fun q => ⟨hbelow _, henter q⟩, fun id => ⟨hbelow _, ?_⟩⟩
  rintro ⟨dir, name, hdir, hmodule, rfl⟩
  obtain ⟨l, hl, htasks⟩ := hlisted dir (henter dir hdir)
  obtain ⟨_, names, _, hfiles, hnames⟩ := names_of_listing_eq hl
  refine htasks _ (List.mem_append_right _ (List.mem_map_of_mem ?_))
  rw [hfiles]
  exact List.mem_map.mpr ⟨name, (hnames name).mpr hmodule, rfl⟩

end Steps

/-- A graph fails with the failure of its exploration. -/
theorem graphFrom_of_failure {e : BuildError}
    (h : (fs.explore config [.ofPath top] .empty).2 = some e) :
    fs.graphFrom config top = .error e := by
  rw [graphFrom]
  cases hexplore : fs.explore config [.ofPath top] .empty with
  | mk d failure =>
    obtain rfl : failure = some e := by rwa [hexplore] at h
    rfl

/-- A walk fails with the failure of its run. -/
theorem walk_of_failure {e : BuildError} (hdir : fs.checkDir top = .ok ())
    (h : fs.conclude config (fs.survey config top).files
      (surveyFailure (fs.survey config top).layout) .empty = (d, some e)) :
    fs.walk config top = .error e := by
  rw [walk, hdir]
  change Draft.empty.analyzeAll fs config (fs.survey config top).files >>= _ = _
  rw [Draft.analyzeAll_eq]
  rw [conclude] at h
  cases hrun : Draft.empty.analyzeEach fs config (fun d _ => d) (fs.survey config top).files with
  | mk d' failure =>
    rw [hrun] at h
    cases failure with
    | some e' =>
      cases h
      rfl
    | none =>
      cases hlayout : (fs.survey config top).layout with
      | ok layout =>
        rw [hlayout] at h
        cases h
      | error e' =>
        rw [hlayout] at h
        cases h
        rfl

/-- A walk that succeeds has a run without a failure, and its modules are those of the draft that
this run ends with. -/
theorem conclude_of_walk {t : DependencyTree} (h : fs.walk config top = .ok t) :
    ∃ d, fs.conclude config (fs.survey config top).files
        (surveyFailure (fs.survey config top).layout) .empty = (d, none) ∧
      t.modules = d.link.modules := by
  obtain ⟨_, _, h⟩ := exists_ok_of_bind h
  obtain ⟨d, hrun, h⟩ := exists_ok_of_bind h
  obtain ⟨layout, hlayout, h⟩ := exists_ok_of_bind h
  rw [conclude, eq_ok_of_mapError hlayout]
  rw [Draft.analyzeAll_eq] at hrun
  cases heach : Draft.empty.analyzeEach fs config (fun d _ => d) (fs.survey config top).files with
  | mk d' failure =>
    rw [heach] at hrun
    cases failure with
    | some e => nomatch hrun
    | none =>
      obtain rfl : d' = d := Except.ok.inj hrun
      cases hdangling : d'.danglingEdge? fs with
      | some e =>
        rw [hdangling] at h
        nomatch h
      | none =>
        rw [hdangling] at h
        exact ⟨d', rfl, congrArg DependencyTree.modules (Except.ok.inj h).symm⟩

/-- **The directories and the modules that a walk comes to differ**, whether it fails or not. -/
theorem nodup_of_run {calls : List WalkStep} {r : Draft × Option BuildError}
    (h : Run (fs.walkTask config) [.enter top] d calls r) :
    ((calls.filterMap dir?).map Path.clean).Nodup ∧ (calls.filterMap module?).Nodup := by
  obtain ⟨_, hdiffer⟩ := pairwise_ne_of_run h (List.pairwise_singleton ..)
  constructor
  · refine List.pairwise_map.mpr (hdiffer.filterMap dir? fun a b hab p hp q hq heq => hab ?_)
    cases a <;> cases hp
    cases b <;> cases hq
    change p.route.steps = q.route.steps
    rw [← p.route_clean, heq, q.route_clean]
  · refine hdiffer.filterMap module? fun a b hab x hx y hy heq => hab ?_
    cases a <;> cases hx
    cases b <;> cases hy
    rw [heq]

/-- **Builds end, and come to everything once.**  On a disk in memory an exploration has exactly one
run from a module: it analyses no module twice, and at most one more than there are module files; a
graph has just the modules that the run comes to.  A walk has exactly one run from a directory: it
enters no directory twice and analyses no module twice, and unless it fails it comes to all
directories and modules that lie below. -/
theorem builds_come_once (m : Memory) (config : Config) {start top : Path}
    (htop : m.toFileSystem.absolute start = .ok top) :
    (∃ calls,
      Run (m.toFileSystem.visitTask config) [.ofPath top] .empty calls
        (m.toFileSystem.explore config [.ofPath top] .empty) ∧
      (∀ calls' r, Run (m.toFileSystem.visitTask config) [.ofPath top] .empty calls' r →
        calls' = calls) ∧
      calls.Nodup ∧ calls.length ≤ m.moduleFiles.length + 1 ∧
      (m.toFileSystem.explore config [.ofPath top] .empty).1.visited = calls ∧
      (∀ e, (m.toFileSystem.explore config [.ofPath top] .empty).2 = some e →
        m.toFileSystem.moduleGraph config start = .error e) ∧
      ∀ g, m.toFileSystem.moduleGraph config start = .ok g → g.modules.keys = calls) ∧
    ∃ calls d failure,
      Run (m.toFileSystem.walkTask config) [.enter top] .empty calls (d, failure) ∧
      (∀ calls' r, Run (m.toFileSystem.walkTask config) [.enter top] .empty calls' r →
        calls' = calls) ∧
      ((calls.filterMap dir?).map Path.clean).Nodup ∧ (calls.filterMap module?).Nodup ∧
      (failure = none → (∀ q, .enter q ∈ calls ↔ m.toFileSystem.IsWalked config top q) ∧
        ∀ id, .analyze id ∈ calls ↔ m.toFileSystem.IsWalkedModule config top id) ∧
      (∀ e, failure = some e → m.toFileSystem.checkDir top = .ok () →
        m.toFileSystem.dependencyTree config start = .error e) ∧
      ∀ t, m.toFileSystem.dependencyTree config start = .ok t →
        failure = none ∧ ∀ id, .analyze id ∈ calls ↔ id ∈ t.modules.keys := by
  rw [moduleGraph_of_absolute htop, dependencyTree_of_absolute htop]
  have hroot : ∀ id ∈ [ModuleId.ofPath top], ModuleId.ofPath id.path = id := by
    simpa using ofPath_path_ofPath top
  constructor
  · obtain ⟨calls, hrun⟩ := m.toFileSystem.exists_run_explore config _ .empty hroot
    obtain ⟨hvisited, hnodup⟩ := visited_of_run hrun List.nodup_nil
    have hbound := Memory.length_le_of_run hrun hroot hnodup
    refine ⟨calls, hrun, fun _ _ h' => (hrun.unique h').1, hnodup, hbound, hvisited,
      fun _ => graphFrom_of_failure, fun g hg => ?_⟩
    obtain ⟨d, hexplore, _, hkeys, _⟩ := graphFrom_eq_ok hg
    rw [hexplore] at hvisited
    exact hkeys.symm.trans hvisited
  · obtain ⟨calls, hrun⟩ := m.toFileSystem.exists_run_survey config top .empty
    obtain ⟨hdirs, hmodules⟩ := nodup_of_run hrun
    obtain ⟨⟨d, failure⟩, hend⟩ : ∃ r, m.toFileSystem.conclude config
      (m.toFileSystem.survey config top).files
      (surveyFailure (m.toFileSystem.survey config top).layout) .empty = r := ⟨_, rfl⟩
    rw [hend] at hrun
    refine ⟨calls, d, failure, hrun, fun _ _ h' => (hrun.unique h').1, hdirs, hmodules, ?_, ?_, ?_⟩
    · rintro rfl
      exact mem_run_iff hrun
    · rintro e rfl hdir
      exact walk_of_failure hdir hend
    · intro t ht
      obtain ⟨_, hsuccess, _⟩ := conclude_of_walk ht
      obtain ⟨rfl, rfl⟩ := Prod.mk.inj (hend.symm.trans hsuccess)
      exact ⟨rfl, fun id => ((mem_run_iff hrun).2 id).trans (mem_keys_walk ht).symm⟩

end FileSystem

namespace Memory

/-- A disk with a module that imports itself, two that import each other, one that both of them
import, and a file that is imported but not there. -/
def tangled : Memory :=
  (((bare none).put ⟨"/a.ts"⟩ { kind := .file "import './a'; import './b'; import './c'".toUTF8 }).put
    ⟨"/b.ts"⟩ { kind := .file "import './a'; import './c'".toUTF8 }).put
    ⟨"/c.ts"⟩ { kind := .file "import './gone.ts'".toUTF8 }

/-- The modules of the disk, and the one that is missing. -/
def tangledA : ModuleId := ⟨⟨"/a.ts"⟩⟩
@[inherit_doc tangledA] def tangledB : ModuleId := ⟨⟨"/b.ts"⟩⟩
@[inherit_doc tangledA] def tangledC : ModuleId := ⟨⟨"/c.ts"⟩⟩
@[inherit_doc tangledA] def tangledGone : ModuleId := ⟨⟨"/gone.ts"⟩⟩

theorem modulesFrom_tangled :
    tangled.toFileSystem.modulesFrom {} tangledA = [tangledA, tangledB, tangledC] ∧
      tangled.toFileSystem.modulesFrom {} tangledB = [tangledA, tangledC] ∧
      tangled.toFileSystem.modulesFrom {} tangledC = [tangledGone] ∧
      tangled.toFileSystem.modulesFrom {} tangledGone = [] := by
  decide +kernel

theorem depthFirst_tangled : DepthFirst (tangled.toFileSystem.modulesFrom {}) [] [tangledA]
    [tangledA, tangledB, tangledC, tangledGone] := by
  obtain ⟨ha, hb, hc, hgone⟩ := modulesFrom_tangled
  have hfromGone : DepthFirst (tangled.toFileSystem.modulesFrom {})
      [tangledA, tangledB, tangledC, tangledGone]
      (tangled.toFileSystem.modulesFrom {} tangledGone) [] := by
    rw [hgone]
    exact .nil
  have hfromC : DepthFirst (tangled.toFileSystem.modulesFrom {}) [tangledA, tangledB, tangledC]
      (tangled.toFileSystem.modulesFrom {} tangledC) (tangledGone :: [] ++ []) := by
    rw [hc]
    exact .enter (by decide) hfromGone .nil
  have hfromB : DepthFirst (tangled.toFileSystem.modulesFrom {}) [tangledA, tangledB]
      (tangled.toFileSystem.modulesFrom {} tangledB) (tangledC :: [tangledGone] ++ []) := by
    rw [hb]
    exact .skip (by decide) (.enter (by decide) hfromC .nil)
  have hfromA : DepthFirst (tangled.toFileSystem.modulesFrom {}) [tangledA]
      (tangled.toFileSystem.modulesFrom {} tangledA)
      (tangledB :: [tangledC, tangledGone] ++ []) := by
    rw [ha]
    exact .skip (by decide) (.enter (by decide) hfromB (.skip (by decide) .nil))
  have hnew : tangledA ∉ ([] : List ModuleId) := by decide
  exact .enter hnew hfromA .nil

end Memory

namespace FileSystem

/-- With three module files the bound is reached: the missing file is analysed as well. -/
theorem builds_come_once_tangled :
    Memory.tangled.toFileSystem.absolute ⟨"/a.ts"⟩ = .ok ⟨"/a.ts"⟩ ∧
    Run (Memory.tangled.toFileSystem.visitTask {}) [.ofPath ⟨"/a.ts"⟩] .empty
      [Memory.tangledA, Memory.tangledB, Memory.tangledC, Memory.tangledGone]
      (Memory.tangled.toFileSystem.explore {} [.ofPath ⟨"/a.ts"⟩] .empty) ∧
    Memory.tangled.moduleFiles.length = 3 := by
  have habsolute : Memory.tangled.toFileSystem.absolute ⟨"/a.ts"⟩ = .ok ⟨"/a.ts"⟩ := by
    decide +kernel
  have hentry : ModuleId.ofPath ⟨"/a.ts"⟩ = Memory.tangledA := by decide +kernel
  obtain ⟨⟨calls, hrun, _, _, _, hvisited, _⟩, _⟩ :=
    builds_come_once Memory.tangled {} habsolute
  have hexplore := explore_of_preorder (ofPath_path_ofPath _) (hentry ▸ Memory.depthFirst_tangled)
  rw [hentry] at hvisited hrun hexplore ⊢
  have hcalls : (Draft.empty.analyzeEach Memory.tangled.toFileSystem {} .visit
      [Memory.tangledA, Memory.tangledB, Memory.tangledC, Memory.tangledGone]).1.visited
      = [Memory.tangledA, Memory.tangledB, Memory.tangledC, Memory.tangledGone] := by
    decide +kernel
  rw [hexplore, hcalls] at hvisited
  subst hvisited
  exact ⟨habsolute, hrun, by decide +kernel⟩

end FileSystem

end ImportAtlas
