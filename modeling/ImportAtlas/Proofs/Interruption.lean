import ImportAtlas.Proofs.Grouping

/-!
# Proofs/Interruption — what an analysis leaves behind that fails

An analysis records an import as soon as it is found and registers its module at the end.  So an
analysis that fails leaves all modules as they were, but it keeps the imports that it has found before
(`Ledger.failed_analysis_keeps_modules`): none if the module cannot be read; else those of the
statements before the one that leads nowhere (`FailsAfter`).  A build that fails is given up, so that
nobody sees them; in a ledger that is used further they are seen, and an import the other way counts
as mutual (`Ledger.failed_analysis_leaves_edge`).
-/

namespace ImportAtlas

variable {fs : FileSystem} {config : Config} {id : ModuleId} {e : BuildError}

namespace FileSystem

/-- **How the analysis of a module fails**, and the files that it has found before. -/
inductive FailsAfter (fs : FileSystem) (config : Config) (id : ModuleId) (e : BuildError) :
    List ModuleId → Prop
  /-- The module is no module file, cannot be read or is not well formed. -/
  | unread (hread : fs.readStructure config.maxFileSize id.path = .error e) :
    FailsAfter fs config id e []
  /-- A statement leads nowhere, while all before it lead somewhere. -/
  | unresolved {dialect : Dialect} {contents : ModuleStructure} {s : ImportStatement}
    {earlier later : List ImportStatement}
    (hread : fs.readStructure config.maxFileSize id.path = .ok (dialect, contents))
    (himports : contents.imports = earlier ++ s :: later)
    (hearlier : ∀ s' ∈ earlier, ∃ r, fs.resolve config.vendorDirs id.path s'.source = .ok r)
    (hs : fs.resolve config.vendorDirs id.path s.source = .error e) :
    FailsAfter fs config id e ((fs.leads config.vendorDirs id.path earlier).map Prod.fst)

/-- The files that a failing analysis reports are those that it has found before. -/
theorem failsAfter_of_analyze (h : (fs.analyze config id).leaf = .error e) :
    FailsAfter fs config id e (fs.analyze config id).targets := by
  unfold analyze at h ⊢
  cases hread : fs.readStructure config.maxFileSize id.path with
  | error e' =>
    simp only [hread, Except.error.injEq] at h ⊢
    exact .unread (h ▸ hread)
  | ok r =>
    simp only [hread] at h ⊢
    cases hfailure :
        (Targets.of (fs.resolve config.vendorDirs id.path) r.2.imports).failure with
    | none => simp [hfailure] at h
    | some e' =>
      simp only [hfailure] at h
      obtain rfl := Except.error.inj h
      obtain ⟨earlier, s, later, himports, hs, hof⟩ := Targets.exists_split_of_failure hfailure
      have hearlier := Targets.failure_eq_none_iff.mp (congrArg Targets.failure hof)
      rw [← leads_eq hof]
      exact .unresolved hread himports hearlier hs

end FileSystem

namespace Ledger

variable {l l' : Ledger}

/-- Recording imports changes nothing exactly if all of them were found before. -/
theorem recordEach_eq_self_iff {edges : List Edge} :
    l.recordEach edges = l ↔ ∀ e ∈ edges, e ∈ l.found := by
  constructor
  · intro h e he
    rw [← h, found_recordEach]
    exact Finset.mem_union_right _ (List.mem_toFinset.mpr he)
  · intro h
    induction edges with
    | nil => rfl
    | cons e edges ih =>
      obtain ⟨he, hedges⟩ := List.forall_mem_cons.mp h
      have hrecord : l.record e = l := if_pos he
      rw [recordEach_cons, hrecord, ih hedges]

/-- **An analysis that fails leaves all modules as they were, and the imports apart all else.**  It adds
the imports that it has found before it fails: none if the module is not read; else those of the
statements before the one that leads nowhere.  Those that are new are queued, each where it comes for
the first time.  So the ledger stays as it was exactly if it has all of them already.  The ledger of a
draft changes as the draft does. -/
theorem failed_analysis_keeps_modules (fs : FileSystem) (config : Config) {l l' : Ledger}
    {id : ModuleId} {e : BuildError} (h : l.analyze fs config id = (l', .error e)) :
    l'.modules = l.modules ∧ l'.visited = l.visited ∧
      ∃ before, fs.FailsAfter config id e before ∧
        l'.found = l.found ∪ (before.map (Edge.mk id)).toFinset ∧
        l'.queue = l.queue ++ (before.map (Edge.mk id)).eraseDups.filter (· ∉ l.found) ∧
        (l' = l ↔ ∀ t ∈ before, ⟨id, t⟩ ∈ l.found) ∧
        ∀ d : Draft, d.toLedger = l →
          (d.analyze fs config id).1.toLedger = l' ∧ (d.analyze fs config id).2 = .error e := by
  obtain ⟨hfails, hledger⟩ := error_of_analyze h
  refine ⟨by rw [hledger, modules_recordEach], by rw [hledger, visited_recordEach],
    (fs.analyze config id).targets, FileSystem.failsAfter_of_analyze hfails, ?_, ?_, ?_,
    fun d hd => analyze_draft h hd⟩
  · rw [hledger, found_recordEach]
  · rw [hledger, queue_recordEach]
  · rw [hledger, recordEach_eq_self_iff, List.forall_mem_map]

end Ledger

/-! ## An import of a module that was never registered -/

namespace Memory

/-- A disk with two modules that import each other, one of which imports a file that is gone as
well. -/
def stranded : Memory :=
  ((bare none).put ⟨"/lib.ts"⟩ { kind := .file "import './main'".toUTF8 }).put ⟨"/main.ts"⟩
    { kind := .file "import './lib'; import './gone'".toUTF8 }

/-- The modules of the disk. -/
def strandedMain : ModuleId := ⟨⟨"/main.ts"⟩⟩
@[inherit_doc strandedMain] def strandedLib : ModuleId := ⟨⟨"/lib.ts"⟩⟩

/-- Why the first of them cannot be analysed. -/
def strandedError : BuildError := .moduleNotFound ⟨"/gone"⟩ "./gone" ⟨"/main.ts"⟩

end Memory

namespace Ledger

/-- The analysis that fails, and what is found and linked after it. -/
theorem analyze_stranded :
    let run := empty.analyze Memory.stranded.toFileSystem {} Memory.strandedMain
    run.2 = .error Memory.strandedError ∧
      run.1.found = {⟨Memory.strandedMain, Memory.strandedLib⟩} ∧
      run.1.queue = [⟨Memory.strandedMain, Memory.strandedLib⟩] ∧
      let linked := (run.1.analyze Memory.stranded.toFileSystem {} Memory.strandedLib).1.linkAll.1
      linked.modules.keys = [Memory.strandedLib] ∧
        (linked.recordOf? ⟨Memory.strandedLib, Memory.strandedMain⟩).map
          (fun record => (record.isMutual, record.resolved)) = some (true, none) := by
  decide +kernel

/-- The module is not registered, and the file that was found before is still known. -/
theorem failed_analysis_keeps_modules_stranded : ∃ l',
    empty.analyze Memory.stranded.toFileSystem {} Memory.strandedMain
      = (l', .error Memory.strandedError) ∧
    l'.modules = empty.modules ∧ l'.visited = empty.visited ∧
    ∃ before, Memory.strandedLib ∈ before ∧
      Memory.stranded.toFileSystem.FailsAfter {} Memory.strandedMain Memory.strandedError before := by
  obtain ⟨herror, hfound, _⟩ := analyze_stranded
  rcases h : empty.analyze Memory.stranded.toFileSystem {} Memory.strandedMain with ⟨l', r⟩
  rw [h] at herror hfound
  obtain rfl : r = .error Memory.strandedError := herror
  obtain ⟨hmodules, hvisited, before, hfails, hbefore, _⟩ :=
    failed_analysis_keeps_modules Memory.stranded.toFileSystem {} h
  refine ⟨l', rfl, hmodules, hvisited, before, ?_, hfails⟩
  have hedge : ⟨Memory.strandedMain, Memory.strandedLib⟩ ∈ l'.found := by
    rw [hfound]
    exact Finset.mem_singleton_self _
  rw [hbefore] at hedge
  simpa [empty] using hedge

/-- **An analysis that fails leaves an import behind**, in the set and in the queue.  The module that it
leads to is analysed next and imports the first one in turn: its import is then marked as mutual,
although the other module is not there. -/
theorem failed_analysis_leaves_edge : ∃ l',
    empty.analyze Memory.stranded.toFileSystem {} Memory.strandedMain
      = (l', .error Memory.strandedError) ∧
    l'.found ≠ empty.found ∧ l'.queue ≠ empty.queue ∧
    ∃ record,
      (l'.analyze Memory.stranded.toFileSystem {} Memory.strandedLib).1.linkAll.1.recordOf?
        ⟨Memory.strandedLib, Memory.strandedMain⟩ = some record ∧
      record.isMutual = true ∧ record.resolved = none := by
  obtain ⟨herror, hfound, hqueue, _, hrecord⟩ := analyze_stranded
  rcases h : empty.analyze Memory.stranded.toFileSystem {} Memory.strandedMain with ⟨l', r⟩
  rw [h] at herror hfound hqueue hrecord
  obtain rfl : r = .error Memory.strandedError := herror
  obtain ⟨record, hget, hsays⟩ := Option.map_eq_some_iff.mp hrecord
  obtain ⟨hmutual, hresolved⟩ := Prod.mk.inj hsays
  refine ⟨l', rfl, ?_, ?_, record, hget, hmutual, hresolved⟩
  · rw [hfound]
    exact Finset.singleton_ne_empty _
  · rw [hqueue]
    exact List.cons_ne_nil _ _

end Ledger

end ImportAtlas
