import ImportAtlas.Proofs.Reachability
import Mathlib.Data.List.Nodup
import Mathlib.Data.List.Perm.Subperm

/-!
# Proofs/Tasks — an exploration analyses no module twice

An exploration and a walk both work off a list of tasks: what a task gives rise to is done before
what stands behind it.  A `Run` writes down which tasks are done, in their order; it is finite, so
that to have one is to come to an end, and there is never more than one (`Run.unique`).  An
exploration has a run from wherever it starts.  Its marks keep it from analysing a module twice, and
since it stops at the first that cannot be read, all but the last are files of the disk.
-/

namespace ImportAtlas

/-! ## Runs -/

section Runs

variable {σ α ε : Type} {act : σ → α → Option (σ × Except ε (List α))} {todo more calls : List α}
  {s s' : σ} {a : α} {e : ε} {r : σ × Option ε}

/-- **Tasks are worked off**, the first of the list first; what a task gives rise to is put before
the others.  A task may be passed over, and one that fails ends the run.  Kept are the tasks that are
done, in order, and what the run ends with. -/
inductive Run (act : σ → α → Option (σ × Except ε (List α))) :
    List α → σ → List α → σ × Option ε → Prop
  | done {s : σ} : Run act [] s [] (s, none)
  | pass {a : α} {todo calls : List α} {s : σ} {r : σ × Option ε} (ha : act s a = none)
      (later : Run act todo s calls r) : Run act (a :: todo) s calls r
  | stop {a : α} {todo : List α} {s s' : σ} {e : ε} (ha : act s a = some (s', .error e)) :
      Run act (a :: todo) s [a] (s', some e)
  | call {a : α} {todo more calls : List α} {s s' : σ} {r : σ × Option ε}
      (ha : act s a = some (s', .ok more)) (later : Run act (more ++ todo) s' calls r) :
      Run act (a :: todo) s (a :: calls) r

/-- What comes of a run and of what is done after it, unless it fails. -/
def unlessFailed (first : σ × Option ε) (rest : σ → σ × Option ε) : σ × Option ε :=
  match first with
  | (s', none) => rest s'
  | (s', some e) => (s', some e)

namespace Run

/-- **There is one run only.** -/
theorem unique {calls' : List α} {r' : σ × Option ε} (h : Run act todo s calls r)
    (h' : Run act todo s calls' r') : calls' = calls ∧ r' = r := by
  induction h generalizing calls' r' with
  | done =>
    cases h'
    exact ⟨rfl, rfl⟩
  | pass ha _ ih =>
    cases h' with
    | pass _ later => exact ih later
    | stop ha' => nomatch ha.symm.trans ha'
    | call ha' _ => nomatch ha.symm.trans ha'
  | stop ha =>
    cases h' with
    | pass ha' _ => nomatch ha.symm.trans ha'
    | stop ha' =>
      cases ha.symm.trans ha'
      exact ⟨rfl, rfl⟩
    | call ha' _ => nomatch ha.symm.trans ha'
  | call ha _ ih =>
    cases h' with
    | pass ha' _ => nomatch ha.symm.trans ha'
    | stop ha' => nomatch ha.symm.trans ha'
    | call ha' later =>
      cases ha.symm.trans ha'
      obtain ⟨rfl, rfl⟩ := ih later
      exact ⟨rfl, rfl⟩

/-- A run that fails leaves alone what stands behind its tasks. -/
theorem append_of_error (h : Run act todo s calls (s', some e)) (more : List α) :
    Run act (todo ++ more) s calls (s', some e) := by
  generalize hr : (s', some e) = r at h
  induction h with
  | done => nomatch congrArg Prod.snd hr
  | pass ha _ ih => exact .pass ha (ih hr)
  | stop ha => exact .stop ha
  | call ha _ ih =>
    have later := ih hr
    rw [List.append_assoc] at later
    exact .call ha later

/-- What stands behind the tasks of a run is done when the run is over. -/
theorem append {calls' : List α} (h : Run act todo s calls (s', none))
    (h' : Run act more s' calls' r) : Run act (todo ++ more) s (calls ++ calls') r := by
  generalize hr : (s', (none : Option ε)) = r' at h
  induction h with
  | done =>
    obtain rfl := congrArg Prod.fst hr
    exact h'
  | pass ha _ ih => exact .pass ha (ih hr)
  | stop ha => nomatch congrArg Prod.snd hr
  | call ha _ ih =>
    have later := ih hr
    rw [List.append_assoc] at later
    exact .call ha later

/-- Two runs are one: the second is made unless the first fails. -/
theorem exists_append {first : σ × Option ε} {rest : σ → σ × Option ε}
    (h : ∃ calls, Run act todo s calls first) (h' : ∀ s', ∃ calls, Run act more s' calls (rest s')) :
    ∃ calls, Run act (todo ++ more) s calls (unlessFailed first rest) := by
  obtain ⟨calls, h⟩ := h
  obtain ⟨s', failure⟩ := first
  cases failure with
  | some e => exact ⟨calls, h.append_of_error more⟩
  | none =>
    obtain ⟨calls', h'⟩ := h' s'
    exact ⟨calls ++ calls', h.append h'⟩

/-- A property of tasks that passes on to what they give rise to holds of all that are done. -/
theorem forall_mem {motive : α → Prop} (h : Run act todo s calls r) (htodo : ∀ a ∈ todo, motive a)
    (hact : ∀ {s s' a more}, act s a = some (s', .ok more) → motive a → ∀ b ∈ more, motive b) :
    ∀ a ∈ calls, motive a := by
  induction h with
  | done => simp
  | pass _ _ ih => exact ih fun b hb => htodo b (List.mem_cons_of_mem _ hb)
  | stop _ => simpa using htodo _ List.mem_cons_self
  | call ha _ ih =>
    obtain ⟨hfirst, hrest⟩ := List.forall_mem_cons.mp htodo
    exact List.forall_mem_cons.mpr
      ⟨hfirst, ih (List.forall_mem_append.mpr ⟨hact ha hfirst, hrest⟩)⟩

/-- **All tasks but the last are done with success.** -/
theorem exists_ok_of_mem_dropLast (h : Run act todo s calls r) :
    ∀ a ∈ calls.dropLast, ∃ s s' more, act s a = some (s', .ok more) := by
  induction h with
  | done => simp
  | pass _ _ ih => exact ih
  | stop _ => simp
  | @call _ _ _ calls _ _ _ ha _ ih =>
    cases calls with
    | nil => simp
    | cons b calls =>
      rw [List.dropLast_cons_of_ne_nil (List.cons_ne_nil b calls)]
      exact List.forall_mem_cons.mpr ⟨⟨_, _, _, ha⟩, ih⟩

/-- If no task is passed over, a run without a failure does all its tasks, and whatever these give
rise to. -/
theorem closed_of_success (hact : ∀ s a, act s a ≠ none) (h : Run act todo s calls (s', none)) :
    (∀ a ∈ todo, a ∈ calls) ∧
      ∀ a ∈ calls, ∃ s s' more, act s a = some (s', .ok more) ∧ ∀ b ∈ more, b ∈ calls := by
  generalize hr : (s', (none : Option ε)) = r at h
  induction h with
  | done => simp
  | pass ha _ _ => exact absurd ha (hact _ _)
  | stop _ => nomatch congrArg Prod.snd hr
  | call ha _ ih =>
    obtain ⟨htodo, hclosed⟩ := ih hr
    obtain ⟨hmore, hrest⟩ := List.forall_mem_append.mp htodo
    refine ⟨List.forall_mem_cons.mpr ⟨List.mem_cons_self, fun b hb =>
      List.mem_cons_of_mem _ (hrest b hb)⟩, List.forall_mem_cons.mpr ⟨⟨_, _, _, ha, fun b hb =>
      List.mem_cons_of_mem _ (hmore b hb)⟩, fun b hb => ?_⟩⟩
    obtain ⟨s, s', more, hb, hall⟩ := hclosed b hb
    exact ⟨s, s', more, hb, fun c hc => List.mem_cons_of_mem _ (hall c hc)⟩

end Run

end Runs

variable {fs : FileSystem} {config : Config} {d d' : Draft} {id : ModuleId} {top q : Path}

/-! ## Explorations -/

namespace FileSystem

/-- The task of an exploration: a module that it has not visited yet is marked and analysed, and
gives rise to the module files that it imports. -/
def visitTask (fs : FileSystem) (config : Config) (d : Draft) (id : ModuleId) :
    Option (Draft × Except BuildError (List ModuleId)) :=
  if d.isVisited id then none
  else
    let (d', found) := (d.visit id).analyze fs config id
    some (d', found.map fun targets => targets.filter (·.path.isModuleFile))

section Visits

variable {todo calls : List ModuleId} {r : Draft × Option BuildError}

theorem visitTask_of_visited (h : id ∈ d.visited) : fs.visitTask config d id = none := by
  have hvisited : d.isVisited id = true := by simpa [Draft.isVisited] using h
  rw [visitTask, if_pos hvisited]

theorem visitTask_of_new (h : id ∉ d.visited) : fs.visitTask config d id
    = some ((d.visit id).addFindings id (fs.analyze config id),
        (fs.analyze config id).leaf.map fun _ => fs.modulesFrom config id) := by
  have hvisited : ¬ d.isVisited id = true := by simpa [Draft.isVisited] using h
  rw [visitTask, if_neg hvisited]
  cases hleaf : (fs.analyze config id).leaf with
  | error e =>
    rw [Draft.analyze_eq_error hleaf]
    rfl
  | ok leaf =>
    rw [Draft.analyze_eq_ok hleaf, modulesFrom, importsOf_of_analyze hleaf]
    rfl

/-- A task that is done marks its module, which was not marked before. -/
theorem visited_of_visitTask {found : Except BuildError (List ModuleId)}
    (h : fs.visitTask config d id = some (d', found)) :
    id ∉ d.visited ∧ d'.visited = d.visited ++ [id] := by
  have hnew : id ∉ d.visited := fun hmem => by nomatch (visitTask_of_visited hmem).symm.trans h
  rw [visitTask_of_new hnew] at h
  obtain ⟨rfl, _⟩ := Prod.mk.inj (Option.some.inj h)
  exact ⟨hnew, by rw [Draft.visited_addFindings, Draft.visited_visit hnew]⟩

/-- **A task that is done with success** is the analysis of a module that is new and can be read. -/
theorem visitTask_eq_ok {more : List ModuleId}
    (h : fs.visitTask config d id = some (d', .ok more)) : id ∉ d.visited ∧
      (∃ leaf, (fs.analyze config id).leaf = .ok leaf) ∧
      d' = (d.visit id).addFindings id (fs.analyze config id) ∧
      more = fs.modulesFrom config id := by
  have hnew := (visited_of_visitTask h).1
  rw [visitTask_of_new hnew] at h
  obtain ⟨hd, hfound⟩ := Prod.mk.inj (Option.some.inj h)
  cases hleaf : (fs.analyze config id).leaf with
  | error e =>
    rw [hleaf] at hfound
    nomatch hfound
  | ok leaf =>
    rw [hleaf] at hfound
    exact ⟨hnew, ⟨leaf, rfl⟩, hd.symm, (Except.ok.inj hfound).symm⟩

/-- **An exploration comes to an end**: what it keeps is a list of tasks. -/
theorem exists_run_explore (fs : FileSystem) (config : Config) (todo : List ModuleId) (d : Draft)
    (htodo : ∀ id ∈ todo, ModuleId.ofPath id.path = id) :
    ∃ calls, Run (fs.visitTask config) todo d calls (fs.explore config todo d) := by
  induction todo, d using FileSystem.explore.induct fs config with
  | case1 d => exact ⟨[], explore_nil fs config d ▸ .done⟩
  | case2 d next todo id hvisited ih =>
    obtain ⟨hid, htodo⟩ := List.forall_mem_cons.mp htodo
    obtain ⟨calls, later⟩ := ih htodo
    have hmem : next ∈ d.visited := by simpa [Draft.isVisited, id, hid] using hvisited
    rw [explore_cons_visited hid hmem]
    exact ⟨calls, .pass (visitTask_of_visited hmem) later⟩
  | case3 d next todo id hvisited d' e h =>
    obtain ⟨hid, _⟩ := List.forall_mem_cons.mp htodo
    have hnew : next ∉ d.visited := by simpa [Draft.isVisited, id, hid] using hvisited
    have htask : fs.visitTask config d next = _ := visitTask_of_new hnew
    rw [show id = next from hid] at h
    cases hleaf : (fs.analyze config next).leaf with
    | ok leaf => cases (Draft.analyze_eq_ok hleaf).symm.trans h
    | error e =>
      rw [hleaf] at htask
      rw [explore_cons_error hid hnew hleaf]
      exact ⟨[next], .stop htask⟩
  | case4 d next todo id hvisited d' targets h ih =>
    obtain ⟨hid, htodo⟩ := List.forall_mem_cons.mp htodo
    have hnew : next ∉ d.visited := by simpa [Draft.isVisited, id, hid] using hvisited
    have htask : fs.visitTask config d next = _ := visitTask_of_new hnew
    rw [show id = next from hid] at h
    cases hleaf : (fs.analyze config next).leaf with
    | error e => cases (Draft.analyze_eq_error hleaf).symm.trans h
    | ok leaf =>
      obtain ⟨rfl, hkeys⟩ := Prod.mk.inj ((Draft.analyze_eq_ok hleaf).symm.trans h)
      rw [← Except.ok.inj hkeys, ← importsOf_of_analyze hleaf] at ih
      obtain ⟨calls, later⟩ := ih (List.forall_mem_append.mpr ⟨ofPath_of_mem_modulesFrom, htodo⟩)
      rw [hleaf] at htask
      rw [explore_cons_ok hid hnew hleaf]
      exact ⟨next :: calls, .call htask later⟩

/-- **The modules that a run comes to are those that it marks**, and none of them is marked
before. -/
theorem visited_of_run (h : Run (fs.visitTask config) todo d calls r) (hd : d.visited.Nodup) :
    r.1.visited = d.visited ++ calls ∧ (d.visited ++ calls).Nodup := by
  induction h with
  | done => simpa using hd
  | pass _ _ ih => exact ih hd
  | stop ha =>
    obtain ⟨hnew, hvisited⟩ := visited_of_visitTask ha
    have hnodup := List.Nodup.concat hnew hd
    rw [List.concat_eq_append] at hnodup
    exact ⟨hvisited, hnodup⟩
  | call ha _ ih =>
    obtain ⟨hnew, hvisited⟩ := visited_of_visitTask ha
    have hnodup := List.Nodup.concat hnew hd
    rw [List.concat_eq_append, ← hvisited] at hnodup
    obtain ⟨hafter, hcalls⟩ := ih hnodup
    rw [hvisited, List.append_assoc] at hafter hcalls
    exact ⟨hafter, hcalls⟩

/-- All modules that a run comes to, the last one excepted, are files that can be read. -/
theorem exists_contents_of_run (h : Run (fs.visitTask config) todo d calls r)
    (htodo : ∀ id ∈ todo, ModuleId.ofPath id.path = id) : ∀ id ∈ calls.dropLast,
      id.path.clean = id.path ∧ id.path.isModuleFile = true ∧
        ∃ bytes, fs.contents id.path = .ok bytes := by
  intro id hid
  have hclean := h.forall_mem htodo (fun ha _ => by
    obtain ⟨_, _, _, rfl⟩ := visitTask_eq_ok ha
    exact ofPath_of_mem_modulesFrom) id ((List.dropLast_sublist calls).subset hid)
  obtain ⟨_, _, _, ha⟩ := h.exists_ok_of_mem_dropLast id hid
  obtain ⟨_, ⟨leaf, hleaf⟩, _⟩ := visitTask_eq_ok ha
  exact ⟨congrArg ModuleId.path hclean, isModuleFile_of_analyze hleaf, contents_of_analyze hleaf⟩

end Visits

end FileSystem

namespace Memory

variable {m : Memory} {p : Path}

/-- The module files of a disk: whatever is not a directory and has an extension of the table. -/
def moduleFiles (m : Memory) : List Path :=
  (m.entries.entries.filter fun (p, e) => !e.isDir && p.isModuleFile).map Prod.fst

theorem mem_moduleFiles {bytes : ByteArray} (hp : p.clean = p)
    (hread : m.toFileSystem.contents p = .ok bytes) (hmodule : p.isModuleFile = true) :
    p ∈ m.moduleFiles := by
  rw [show m.toFileSystem.contents p = m.contents p from rfl, contents] at hread
  cases he : m.find? p with
  | none => simp [he] at hread
  | some e =>
    have hdir : e.isDir = false := by
      cases hdir : e.isDir with
      | false => rfl
      | true => cases hfault : e.readFault <;> simp [he, hfault, hdir] at hread
    rw [find?, hp, OrderedMap.get?_eq_some_iff] at he
    exact List.mem_map.mpr ⟨(p, e), List.mem_filter.mpr ⟨he, by simp [hdir, hmodule]⟩, rfl⟩

/-- **An exploration analyses at most one module more than there are module files.** -/
theorem length_le_of_run {config : Config} {todo calls : List ModuleId} {d : Draft}
    {r : Draft × Option BuildError} (h : Run (m.toFileSystem.visitTask config) todo d calls r)
    (htodo : ∀ id ∈ todo, ModuleId.ofPath id.path = id) (hcalls : calls.Nodup) :
    calls.length ≤ m.moduleFiles.length + 1 := by
  have hread := FileSystem.exists_contents_of_run h htodo
  have hsubset : calls.dropLast.map ModuleId.path ⊆ m.moduleFiles := by
    intro p hp
    obtain ⟨id, hid, rfl⟩ := List.mem_map.mp hp
    obtain ⟨hclean, hmodule, bytes, hbytes⟩ := hread id hid
    exact mem_moduleFiles hclean hbytes hmodule
  have hnodup : (calls.dropLast.map ModuleId.path).Nodup := by
    refine (hcalls.sublist (List.dropLast_sublist calls)).map fun a b hab => ?_
    cases a
    cases b
    cases hab
    rfl
  have hlength := (List.subperm_of_subset hnodup hsubset).length_le
  rw [List.length_map, List.length_dropLast] at hlength
  omega

end Memory

end ImportAtlas
