import ImportAtlas.Proofs.Missing
import ImportAtlas.Proofs.Relinking
import Mathlib.Data.List.Induction

/-!
# Proofs/Guards — what a build is prepared for and never meets

Some errors and some checks of a build are there in case another part of it goes wrong: a module with
no extension of the table, a module that is registered twice, an import without a record.  None of
them is met (`guards_never_trip`), but for an entry that is no module file.  Whatever is analysed has
passed the test for module files before, and cleaning a path keeps its last name
(`Path.fileName?_clean`); the rest are invariants of the situations that a run comes to (`ComesTo`).
-/

namespace ImportAtlas

open WalkStep

/-! ## Situations -/

section Situations

variable {σ α ε : Type} {act : σ → α → Option (σ × Except ε (List α))} {start todo calls : List α}
  {s s' s'' : σ} {a : α}

/-- **The situations that a run comes to**: what is still to be done, and the state. -/
inductive ComesTo (act : σ → α → Option (σ × Except ε (List α))) (start : List α) (s : σ) :
    List α → σ → Prop
  | start : ComesTo act start s start s
  | pass {a : α} {todo : List α} {s' : σ} (h : ComesTo act start s (a :: todo) s')
      (ha : act s' a = none) : ComesTo act start s todo s'
  | call {a : α} {todo more : List α} {s' s'' : σ} (h : ComesTo act start s (a :: todo) s')
      (ha : act s' a = some (s'', .ok more)) : ComesTo act start s (more ++ todo) s''

/-- A run that does not fail comes to its end. -/
theorem Run.comesTo (h : Run act todo s' calls (s'', none)) (hs : ComesTo act start s todo s') :
    ComesTo act start s [] s'' := by
  generalize hr : (s'', (none : Option ε)) = r at h
  induction h with
  | done =>
    obtain rfl := congrArg Prod.fst hr
    exact hs
  | pass ha _ ih => exact ih (hs.pass ha) hr
  | stop _ => nomatch congrArg Prod.snd hr
  | call ha _ ih => exact ih (hs.call ha) hr

end Situations

/-! ## The last name of a path -/

namespace Path

variable {p : Path} {name : String}

/-- A piece that is no component leads nowhere. -/
theorem extendRoute_of_ofPiece?_eq_none {piece : String} (h : Component.ofPiece? piece = none)
    (absolute : Bool) (steps : List String) : extendRoute absolute steps piece = steps := by
  unfold Component.ofPiece? at h
  split at h
  · exact if_pos ‹_›
  · split at h <;> nomatch h

theorem extendRoute_of_ofPiece?_eq_name {piece : String}
    (h : Component.ofPiece? piece = some (.name name)) (absolute : Bool) (steps : List String) :
    extendRoute absolute steps piece = name :: steps ∧ name ≠ ".." := by
  unfold Component.ofPiece? at h
  split at h
  · nomatch h
  · split at h
    · nomatch h
    · rename_i hnone hup
      obtain rfl := Component.name.inj (Option.some.inj h)
      unfold extendRoute
      rw [if_neg hnone, if_neg hup]
      exact ⟨rfl, by simpa using hup⟩

/-- Pieces that end in a name, but for what leads nowhere, lead to an entry of that name. -/
theorem exists_foldl_extendRoute_eq_cons {pieces : List String}
    (h : (pieces.filterMap Component.ofPiece?).getLast? = some (.name name)) (absolute : Bool) :
    ∃ steps, pieces.foldl (extendRoute absolute) [] = name :: steps ∧ name ≠ ".." := by
  induction pieces using List.reverseRecOn with
  | nil => nomatch h
  | append_singleton pieces piece ih =>
    rw [List.filterMap_append] at h
    rw [List.foldl_concat]
    cases hpiece : Component.ofPiece? piece with
    | none =>
      rw [List.filterMap_cons_none hpiece, List.filterMap_nil, List.append_nil] at h
      rw [extendRoute_of_ofPiece?_eq_none hpiece]
      exact ih h
    | some component =>
      rw [List.filterMap_cons_some hpiece, List.filterMap_nil, List.getLast?_concat] at h
      obtain rfl := Option.some.inj h
      exact ⟨_, extendRoute_of_ofPiece?_eq_name hpiece absolute _⟩

/-- A path that ends in a name leads to an entry of that name. -/
theorem exists_steps_of_fileName? (h : p.fileName? = some name) :
    ∃ steps, p.route.steps = steps ++ [name] ∧ name ≠ ".." := by
  have hlast : p.components.getLast? = some (.name name) := by
    rw [fileName?_eq_some_iff.mp h, List.getLast?_concat]
  have hleading : ∀ c ∈ p.leading.getLast?, c ≠ .name name := by
    intro c hc
    unfold leading at hc
    repeat' split at hc
    all_goals (cases hc; try nofun)
  have hpieces : (p.pieces.filterMap Component.ofPiece?).getLast? = some (.name name) := by
    rw [components, List.getLast?_append, Option.or_eq_some_iff] at hlast
    rcases hlast with hlast | ⟨_, hlast⟩
    · exact hlast
    · exact absurd rfl (hleading _ hlast)
  obtain ⟨steps, hsteps, hname⟩ := exists_foldl_extendRoute_eq_cons hpieces p.isAbsolute
  exact ⟨steps.reverse, by rw [route, hsteps, List.reverse_cons], hname⟩

/-- **Cleaning keeps the last name of a path.** -/
theorem fileName?_clean (h : p.fileName? = some name) : p.clean.fileName? = some name := by
  obtain ⟨steps, hsteps, hname⟩ := exists_steps_of_fileName? h
  have hroute : p.clean.route = ⟨p.isAbsolute, steps ++ [name]⟩ := by
    rw [route_clean, ← hsteps]
    rfl
  exact fileName?_of_route (clean_clean p) hroute hname

theorem isModuleFile_clean (h : p.isModuleFile = true) : p.clean.isModuleFile = true := by
  rw [isModuleFile, dialect?, extension?] at h ⊢
  cases hname : p.fileName? with
  | none => simp [hname] at h
  | some name => rwa [fileName?_clean hname, ← hname]

end Path

/-! ## Errors of analyses -/

/-- **The errors that no module file can cause**: those of its extension, of the start of a walk and
of the disk refusing to answer. -/
def BuildError.IsGuard : BuildError → Prop
  | notADirectory _ | parse _ .unsupportedExtension | fileSystem _ => True
  | _ => False

namespace FileSystem

variable {fs : FileSystem} {config : Config} {p top entry : Path} {id : ModuleId} {leaf : Leaf}
  {d d' : Draft} {e : BuildError}

theorem not_isGuard_of_readText {maxFileSize : Nat} (h : fs.readText maxFileSize p = .error e) :
    ¬ e.IsGuard := by
  unfold readText at h
  repeat' split at h
  all_goals cases h <;> exact fun hguard => hguard

/-- A file without an extension of the table is not even read. -/
theorem analyze_of_isModuleFile_eq_false (h : id.path.isModuleFile = false) :
    (fs.analyze config id).leaf = .error (.parse id.path .unsupportedExtension) := by
  have hdialect : id.path.dialect? = none := by
    rwa [Path.isModuleFile, Option.isSome_eq_false_iff, Option.isNone_iff_eq_none] at h
  rw [analyze, readStructure, hdialect]

/-- **The analysis of a module file fails for a reason of its own.** -/
theorem not_isGuard_of_analyze (hmodule : id.path.isModuleFile = true)
    (h : (fs.analyze config id).leaf = .error e) : ¬ e.IsGuard := by
  unfold analyze at h
  split at h
  · rename_i e' hstructure
    obtain rfl := Except.error.inj h
    unfold readStructure at hstructure
    split at hstructure
    · rename_i hdialect
      simp [Path.isModuleFile, hdialect] at hmodule
    · split at hstructure
      · rename_i e' htext
        obtain rfl := Except.error.inj hstructure
        exact not_isGuard_of_readText htext
      · split at hstructure <;> cases hstructure
        exact fun hguard => hguard
  · simp only at h
    split at h
    · rename_i hfailure
      obtain rfl := Except.error.inj h
      obtain ⟨_, _, hresolve⟩ := Targets.exists_of_failure hfailure
      obtain ⟨rfl, _⟩ := leadsNowhere_of_resolve hresolve
      exact fun hguard => hguard
    · cases h

/-! ## Errors of builds -/

/-- The modules of a walk are module files. -/
theorem IsWalkedModule.isModuleFile (h : fs.IsWalkedModule config top id) :
    id.path.isModuleFile = true := by
  obtain ⟨dir, name, _, ⟨_, _, _, _, _, _, _, hmodule⟩, rfl⟩ := h
  exact Path.isModuleFile_clean hmodule

/-- **A walk meets no file without an extension of the table.** -/
theorem walk_ne_unsupported (fs : FileSystem) (config : Config) (top p : Path) :
    fs.walk config top ≠ .error (.parse p .unsupportedExtension) := by
  intro h
  rcases walk_eq_error_cases h with
    hdir | ⟨_, heq⟩ | ⟨id, ⟨calls, _, hrun, hid⟩, hleaf⟩ | ⟨_, _, _, _, _, heq⟩
  · rcases checkDir_eq_error_cases hdir with heq | ⟨_, heq⟩ <;> nomatch heq
  · nomatch heq
  · exact not_isGuard_of_analyze (isStepBelow_of_run hrun _ hid).isModuleFile hleaf trivial
  · nomatch heq

/-- What a graph comes to are module files, but for its entry. -/
theorem Reaches.eq_or_isModuleFile {root : ModuleId} (h : fs.Reaches config root id) :
    id = root ∨ id.path.isModuleFile = true := by
  cases h with
  | root => exact Or.inl rfl
  | step _ _ _ hfile => exact Or.inr hfile

/-- **The guards of a graph are met by its entry only.** -/
theorem eq_of_graphFrom_of_isGuard (h : fs.graphFrom config entry = .error e) (he : e.IsGuard) :
    entry.clean.isModuleFile = false ∧ e = .parse entry.clean .unsupportedExtension := by
  obtain ⟨before, id, after, horder, _, hleaf⟩ := graphFrom_eq_error h
  have hreaches := (mem_preorder_iff horder).mp (List.mem_append_right before List.mem_cons_self)
  cases hmodule : id.path.isModuleFile with
  | true => exact absurd he (not_isGuard_of_analyze hmodule hleaf)
  | false =>
    rcases hreaches.eq_or_isModuleFile with rfl | hfile
    · have hentry : (fs.analyze config (.ofPath entry)).leaf = _ :=
        analyze_of_isModuleFile_eq_false hmodule
      exact ⟨hmodule, Except.error.inj (hleaf.symm.trans hentry)⟩
    · nomatch hmodule.symm.trans hfile

theorem graphFrom_eq_unsupported_iff :
    fs.graphFrom config entry = .error (.parse p .unsupportedExtension) ↔
      entry.clean.isModuleFile = false ∧ p = entry.clean := by
  constructor
  · intro h
    obtain ⟨hentry, heq⟩ := eq_of_graphFrom_of_isGuard h trivial
    exact ⟨hentry, (BuildError.parse.inj heq).1⟩
  · rintro ⟨hentry, rfl⟩
    have hleaf : (fs.analyze config (.ofPath entry)).leaf = _ :=
      analyze_of_isModuleFile_eq_false hentry
    refine graphFrom_of_failure ?_
    rw [explore_cons_error (ofPath_path_ofPath entry) List.not_mem_nil hleaf]
    rfl

/-! ## Drafts of builds -/

/-- **A build whose draft is never caught out**, given what its tasks are, which module a task
analyses, and how it ends. -/
structure KeepsOrder {α : Type} (act : Draft → α → Option (Draft × Except BuildError (List α)))
    (module? : α → Option ModuleId) (start : List α) (result : Draft × Option BuildError) :
    Prop where
  run : ∃ calls, Run act start .empty calls result
  /-- A module that is analysed with success is new to the draft, and goes to its end. -/
  registers_first : ∀ a todo d d' more id, ComesTo act start .empty (a :: todo) d →
    act d a = some (d', .ok more) → module? a = some id →
      d.hasModule id = false ∧ d'.modules.keys = d.modules.keys ++ [id]
  /-- When the edges are linked one by one, each has a record when its turn comes. -/
  links_recorded : result.2 = none → ∀ done e later, result.1.edges = done ++ e :: later →
    ((result.1.linkQueue done).1.recordOf? e).isSome = true

section Situations

variable {α : Type} {act : Draft → α → Option (Draft × Except BuildError (List α))}
  {start todo : List α}

/-- A draft stays sound on the way if each task keeps it so. -/
theorem sound_of_comesTo (h : ComesTo act start .empty todo d)
    (hact : ∀ {d d' a more}, d.Sound fs config → act d a = some (d', .ok more) →
      d'.Sound fs config) : d.Sound fs config := by
  induction h with
  | start => exact Draft.Sound.empty
  | pass _ _ ih => exact ih
  | call _ ha ih => exact hact ih ha

/-- It is enough to look at tasks. -/
theorem KeepsOrder.of_sound (fs : FileSystem) (config : Config) {module? : α → Option ModuleId}
    {result : Draft × Option BuildError} (hrun : ∃ calls, Run act start .empty calls result)
    (hact : ∀ {d d' a more}, d.Sound fs config → act d a = some (d', .ok more) →
      d'.Sound fs config)
    (hkeys : ∀ {d d' a more id}, act d a = some (d', .ok more) → module? a = some id →
      id ∉ d.modules.keys → d'.modules.keys = d.modules.keys ++ [id])
    (hnew : ∀ {a todo d d' more id}, ComesTo act start .empty (a :: todo) d →
      act d a = some (d', .ok more) → module? a = some id → id ∉ d.modules.keys) :
    KeepsOrder act module? start result where
  run := hrun
  registers_first a todo d d' more id hcomes ha hid := by
    have hnot := hnew hcomes ha hid
    refine ⟨?_, hkeys ha hid hnot⟩
    rw [← Bool.not_eq_true, Draft.hasModule, OrderedMap.contains_eq_true]
    exact hnot
  links_recorded hend done e later hedges := by
    obtain ⟨calls, hrun⟩ := hrun
    obtain ⟨d, failure⟩ := result
    obtain rfl : failure = none := hend
    have hsound : d.Sound fs config := sound_of_comesTo (hrun.comesTo .start) hact
    have hdone : ∀ e' ∈ done, e' ∈ d.edges := fun e' he' => by
      rw [hedges]
      exact List.mem_append_left _ he'
    have he : e ∈ d.edges := by
      rw [hedges]
      exact List.mem_append_right _ List.mem_cons_self
    obtain ⟨_, _, _, _, hrecord⟩ := hsound.exists_record he
    rw [Draft.linkQueue_of_subset hdone, Draft.isSome_recordOf?_linkSome, hrecord, Option.isSome_some]

end Situations

/-! ### Graphs -/

section Graphs

variable {todo more : List ModuleId}

theorem keys_of_visitTask (h : fs.visitTask config d id = some (d', .ok more))
    (hid : id ∉ d.modules.keys) : d'.modules.keys = d.modules.keys ++ [id] := by
  obtain ⟨_, ⟨leaf, hleaf⟩, rfl, _⟩ := visitTask_eq_ok h
  rw [Draft.keys_addFindings hleaf, Draft.modules_visit, if_neg hid]

/-- **All modules of the draft are marked as visited**, in every situation of an exploration. -/
theorem mem_visited_of_comesTo {start : List ModuleId}
    (h : ComesTo (fs.visitTask config) start .empty todo d) : d.modules.keys ⊆ d.visited := by
  induction h with
  | start => exact List.nil_subset _
  | pass _ _ ih => exact ih
  | @call id _ _ d d' _ ha ih =>
    obtain ⟨hnew, ⟨leaf, hleaf⟩, rfl, _⟩ := visitTask_eq_ok ha
    intro other hother
    rw [Draft.visited_addFindings, Draft.visited_visit hnew, List.mem_append, List.mem_singleton]
    rw [Draft.mem_keys_addFindings hleaf, Draft.modules_visit] at hother
    exact hother.imp_left (@ih other)

theorem keepsOrder_explore (fs : FileSystem) (config : Config) (entry : Path) :
    KeepsOrder (fs.visitTask config) some [.ofPath entry]
      (fs.explore config [.ofPath entry] .empty) := by
  have hentry : ∀ id ∈ [ModuleId.ofPath entry], ModuleId.ofPath id.path = id := by
    simpa using ofPath_path_ofPath entry
  refine .of_sound fs config (fs.exists_run_explore config _ .empty hentry) ?_ ?_ ?_
  · intro d d' id more hd ha
    obtain ⟨_, ⟨leaf, hleaf⟩, rfl, _⟩ := visitTask_eq_ok ha
    exact (hd.visit id).addFindings hleaf
  · rintro d d' _ more id ha ⟨⟩ hnot
    exact keys_of_visitTask ha hnot
  · rintro _ todo d d' more id hcomes ha ⟨⟩ hmem
    exact (visitTask_eq_ok ha).1 (mem_visited_of_comesTo hcomes hmem)

end Graphs

/-! ### Walks -/

section Walks

variable {todo more : List WalkStep} {a : WalkStep}

/-- **What is still to be done lies apart from all modules of the draft**, in every situation of a
walk. -/
theorem apart_of_comesTo (h : ComesTo (fs.walkTask config) [.enter top] .empty todo d) :
    todo.Pairwise Apart ∧ ∀ id ∈ d.modules.keys, ∀ a ∈ todo, Apart (.analyze id) a := by
  induction h with
  | start => exact ⟨List.pairwise_singleton .., by simp [Draft.empty]⟩
  | pass _ ha _ => exact absurd ha (walkTask_ne_none _ _)
  | @call a todo more d d' _ ha ih =>
    obtain ⟨hpairwise, hkeys⟩ := ih
    obtain ⟨hapart, hunder⟩ := pairwise_apart_of_walkTask ha hpairwise
    refine ⟨hapart, fun id hid => List.forall_mem_append.mpr ?_⟩
    rcases walkTask_eq_ok_cases ha with ⟨_, _, _, _, rfl, _⟩ | ⟨id', leaf, rfl, hleaf, rfl, rfl⟩
    · obtain ⟨hdone, htodo⟩ := List.forall_mem_cons.mp (hkeys id hid)
      exact ⟨fun t ht => (hdone.symm.of_below (hunder t ht)).symm, htodo⟩
    · refine ⟨by simp, fun b hb => ?_⟩
      rcases (Draft.mem_keys_addFindings hleaf).mp hid with hid | rfl
      · exact hkeys id hid b (List.mem_cons_of_mem _ hb)
      · exact (List.pairwise_cons.mp hpairwise).1 b hb

theorem keepsOrder_survey (fs : FileSystem) (config : Config) (top : Path) :
    KeepsOrder (fs.walkTask config) module? [.enter top]
      (fs.conclude config (fs.survey config top).files
        (surveyFailure (fs.survey config top).layout) .empty) := by
  refine .of_sound fs config (fs.exists_run_survey config top .empty) ?_ ?_ ?_
  · intro d d' a more hd ha
    rcases walkTask_eq_ok_cases ha with ⟨_, _, _, _, rfl, _⟩ | ⟨id, leaf, _, hleaf, rfl, _⟩
    · exact hd
    · exact hd.addFindings hleaf
  · intro d d' a more id ha hid hnot
    rcases walkTask_eq_ok_cases ha with ⟨_, _, rfl, _⟩ | ⟨id', leaf, rfl, hleaf, rfl, _⟩
    · nomatch hid
    · obtain rfl := Option.some.inj hid
      rw [Draft.keys_addFindings hleaf, if_neg hnot]
  · intro a todo d d' more id hcomes ha hid hmem
    cases a with
    | enter dir => nomatch hid
    | analyze id' =>
      obtain rfl := Option.some.inj hid
      have hself := (apart_of_comesTo hcomes).2 _ hmem _ List.mem_cons_self
      exact hself.1 (List.prefix_refl _)

end Walks

/-- **The guards of a build never trip.**  No walk meets a file without an extension of the table, and
a graph only if its entry is one; a graph fails with no other error that is not due to a module.  In
every situation of an exploration and of a walk a module that is analysed with success is new to the
draft, and once the draft is linked each of its edges has a record. -/
theorem guards_never_trip (fs : FileSystem) (config : Config) :
    (∀ top p, fs.walk config top ≠ .error (.parse p .unsupportedExtension)) ∧
      (∀ entry p, fs.graphFrom config entry = .error (.parse p .unsupportedExtension) ↔
        entry.clean.isModuleFile = false ∧ p = entry.clean) ∧
      (∀ entry e, fs.graphFrom config entry = .error e →
        (∀ p, e ≠ .notADirectory p) ∧ ∀ source, e ≠ .fileSystem source) ∧
      (∀ entry, KeepsOrder (fs.visitTask config) some [.ofPath entry]
        (fs.explore config [.ofPath entry] .empty)) ∧
      ∀ top, KeepsOrder (fs.walkTask config) module? [.enter top]
        (fs.conclude config (fs.survey config top).files
          (surveyFailure (fs.survey config top).layout) .empty) := by
  refine ⟨fs.walk_ne_unsupported config, fun _ _ => graphFrom_eq_unsupported_iff,
    fun entry e h => ⟨?_, ?_⟩, fs.keepsOrder_explore config, fs.keepsOrder_survey config⟩
  · rintro p rfl
    nomatch (eq_of_graphFrom_of_isGuard h trivial).2
  · rintro source rfl
    nomatch (eq_of_graphFrom_of_isGuard h trivial).2

/-- An entry that is no module file is found out, and the first module of a graph is the first of its
draft. -/
theorem guards_never_trip_tangled :
    Memory.tangled.toFileSystem.graphFrom {} ⟨"/notes/../a.md"⟩
        = .error (.parse ⟨"/a.md"⟩ .unsupportedExtension) ∧
      ∃ d more,
        Memory.tangled.toFileSystem.visitTask {} .empty Memory.tangledA = some (d, .ok more) ∧
          d.modules.keys = [Memory.tangledA] := by
  obtain ⟨_, hentry, _, hgraph, _⟩ := guards_never_trip Memory.tangled.toFileSystem {}
  have hleaf : (Memory.tangled.toFileSystem.analyze {} Memory.tangledA).leaf.isOk = true := by
    decide +kernel
  obtain ⟨leaf, hleaf⟩ := exists_eq_ok_of_isOk hleaf
  have htask : Memory.tangled.toFileSystem.visitTask {} .empty Memory.tangledA = _ :=
    visitTask_of_new List.not_mem_nil
  rw [hleaf] at htask
  have hroot : ModuleId.ofPath ⟨"/a.ts"⟩ = Memory.tangledA := by decide +kernel
  have hfirst := (hgraph ⟨"/a.ts"⟩).registers_first Memory.tangledA [] .empty _ _ Memory.tangledA
    (hroot ▸ .start) htask rfl
  exact ⟨(hentry _ _).mpr (by decide +kernel), _, _, htask, hfirst.2⟩

end FileSystem

end ImportAtlas
