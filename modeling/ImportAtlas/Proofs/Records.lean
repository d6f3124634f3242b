import ImportAtlas.Proofs.Findings
import Mathlib.Data.List.Flatten
import Mathlib.Data.List.Induction

/-!
# Proofs/Records — a record collects the statements that lead to its file

An analysis goes through the statements of a module one by one and keeps all records at once.  The
record of one file depends only on the statements that lead there (`get?_importRecords`), and it is
made of their sources, each once, and of all that they bind (`ImportRecord.collect_eq`).  So the leaf
of a module is given in closed form (`FileSystem.importOf?_of_analyze`), and a module can be analysed
as soon as it is read and each of its statements leads somewhere (`FileSystem.exists_leaf_iff`).
-/

namespace ImportAtlas

/-! ## First occurrences -/

section EraseDups

variable {α : Type} [DecidableEq α]

/-- A member at the end is kept where it comes for the first time. -/
theorem eraseDups_append_singleton (l : List α) (x : α) :
    (l ++ [x]).eraseDups
      = if l.eraseDups.contains x then l.eraseDups else l.eraseDups ++ [x] := by
  by_cases h : x ∈ l
  · simp [List.eraseDups_append, List.removeAll, h]
  · simp [List.eraseDups_append, List.eraseDups_cons, List.removeAll, h]

/-- It does not matter whether members are left out before or after their repetitions are. -/
theorem eraseDups_filter (p : α → Bool) (l : List α) :
    (l.filter p).eraseDups = l.eraseDups.filter p := by
  induction l using List.reverseRecOn with
  | nil => rfl
  | append_singleton l x ih =>
    rw [List.filter_append, eraseDups_append_singleton]
    cases hx : p x with
    | false =>
      rw [List.filter_cons_of_neg (by simp [hx]), List.filter_nil, List.append_nil, ih]
      split
      · rfl
      · simp [hx]
    | true =>
      rw [List.filter_cons_of_pos hx, List.filter_nil, eraseDups_append_singleton, ih]
      by_cases hmem : x ∈ l
      · simp [hmem, hx]
      · simp [hmem, hx]

end EraseDups

/-! ## Records of statements -/

namespace ImportRecord

variable {statements : List ImportStatement} {s : ImportStatement}

/-- The record that statements leave behind, one after the other. -/
def collect (statements : List ImportStatement) : Option ImportRecord :=
  statements.foldl (fun record s => some (merge s record)) none

theorem collect_append (statements : List ImportStatement) (s : ImportStatement) :
    collect (statements ++ [s]) = some (merge s (collect statements)) := by
  rw [collect, List.foldl_append]
  rfl

/-- **What the record of statements consists of**: their sources, each where it is written first, and
all that they bind. -/
theorem collect_eq (hne : statements ≠ []) : collect statements =
    some ⟨(statements.map (·.source)).eraseDups, false, none, statements.flatMap (·.bindings)⟩ := by
  induction statements using List.reverseRecOn with
  | nil => exact absurd rfl hne
  | append_singleton statements s ih =>
    rw [collect_append, List.map_append, List.map_singleton, eraseDups_append_singleton,
      List.flatMap_append, List.flatMap_singleton]
    by_cases hnil : statements = []
    · subst hnil
      rfl
    · rw [ih hnil]
      rfl

theorem collect_eq_none_iff : collect statements = none ↔ statements = [] := by
  constructor
  · intro h
    refine Decidable.byContradiction fun hne => ?_
    nomatch (collect_eq hne).symm.trans h
  · rintro rfl
    rfl

/-- Each statement has its source in the record. -/
theorem exists_collect_of_mem (h : s ∈ statements) :
    ∃ record, collect statements = some record ∧ s.source ∈ record.specifiers := by
  refine ⟨_, collect_eq (List.ne_nil_of_mem h), ?_⟩
  exact List.mem_eraseDups.mpr (List.mem_map_of_mem h)

/-- **The record of some of the statements**, chosen by their sources, has a part of the specifiers
and of the bindings of all. -/
theorem sublist_of_collect_filter {p : String → Bool} {record : ImportRecord}
    (h : collect (statements.filter fun s => p s.source) = some record) :
    ∃ whole, collect statements = some whole ∧ record.specifiers.Sublist whole.specifiers ∧
      record.bindings.Sublist whole.bindings := by
  have hne : statements.filter (fun s => p s.source) ≠ [] := fun hnil => by
    rw [collect_eq_none_iff.mpr hnil] at h
    nomatch h
  have hne' : statements ≠ [] := by
    rintro rfl
    exact hne rfl
  have hsources : (statements.filter fun s => p s.source).map (·.source)
      = (statements.map (·.source)).filter p := by
    rw [List.filter_map]
    rfl
  rw [collect_eq hne, hsources, eraseDups_filter] at h
  obtain rfl := Option.some.inj h
  exact ⟨_, collect_eq hne', List.filter_sublist, List.filter_sublist.flatMap _⟩

end ImportRecord

theorem get?_foldl_merge (found : List (ModuleId × ImportStatement))
    (m : OrderedMap ModuleId ImportRecord) (t : ModuleId) :
    (found.foldl (fun m (target, statement) =>
        m.update target (ImportRecord.merge statement)) m).get? t
      = ((found.filter fun f => f.1 == t).map Prod.snd).foldl
          (fun record s => some (ImportRecord.merge s record)) (m.get? t) := by
  induction found generalizing m with
  | nil => rfl
  | cons f found ih =>
    obtain ⟨target, statement⟩ := f
    rw [List.foldl_cons, ih, OrderedMap.get?_update]
    by_cases h : t = target
    · simp [h]
    · simp [h, Ne.symm h]

/-- **The record of a file collects the statements that were found to lead there.** -/
theorem get?_importRecords (found : List (ModuleId × ImportStatement)) (t : ModuleId) :
    (importRecords found).get? t
      = ImportRecord.collect ((found.filter fun f => f.1 == t).map Prod.snd) := by
  rw [importRecords, get?_foldl_merge]
  rfl

/-- **The records stand in the order in which their files are first found.** -/
theorem keys_importRecords (found : List (ModuleId × ImportStatement)) :
    (importRecords found).keys = (found.map Prod.fst).eraseDups := by
  induction found using List.reverseRecOn with
  | nil => rfl
  | append_singleton found f ih =>
    have hlast : importRecords (found ++ [f])
        = (importRecords found).update f.1 (ImportRecord.merge f.2) := by
      rw [importRecords, List.foldl_append]
      rfl
    rw [hlast, OrderedMap.keys_update, ih, List.map_append, List.map_singleton,
      eraseDups_append_singleton]
    simp only [List.contains_iff_mem]

/-! ## Where statements lead -/

/-- The file that a specifier leads to, if it leads to one. -/
def targetOf? : Except BuildError Resolution → Option ModuleId
  | .ok (.file t) => some t
  | _ => none

theorem targetOf?_eq_some {r : Except BuildError Resolution} {t : ModuleId} :
    targetOf? r = some t ↔ r = .ok (.file t) := by
  rcases r with e | (target | specifier) <;> simp [targetOf?]

namespace Targets

variable {resolve : String → Except BuildError Resolution} {statements : List ImportStatement}

/-- Nothing fails exactly if each statement leads somewhere. -/
theorem failure_eq_none_iff : (Targets.of resolve statements).failure = none ↔
    ∀ s ∈ statements, ∃ r, resolve s.source = .ok r := by
  induction statements with
  | nil => simp [Targets.of]
  | cons s rest ih =>
    rw [List.forall_mem_cons, ← ih]
    rcases hs : resolve s.source with e | (target | specifier) <;> simp [Targets.of, hs]

/-- **What fails is the first statement that leads nowhere**: those before it are found as if there were
no others. -/
theorem exists_split_of_failure {e : BuildError}
    (h : (Targets.of resolve statements).failure = some e) :
    ∃ earlier s later, statements = earlier ++ s :: later ∧ resolve s.source = .error e ∧
      Targets.of resolve earlier = ⟨(Targets.of resolve statements).found, none⟩ := by
  induction statements with
  | nil => nomatch h
  | cons s rest ih =>
    cases hs : resolve s.source with
    | error e' =>
      simp only [Targets.of, hs, Option.some.injEq] at h ⊢
      exact ⟨[], s, rest, rfl, h ▸ hs, rfl⟩
    | ok r =>
      cases r with
      | external other =>
        simp only [Targets.of, hs] at h ⊢
        obtain ⟨earlier, s', later, rfl, hs', hof⟩ := ih h
        exact ⟨s :: earlier, s', later, rfl, hs', by rw [Targets.of, hs]; exact hof⟩
      | file target =>
        simp only [Targets.of, hs] at h ⊢
        obtain ⟨earlier, s', later, rfl, hs', hof⟩ := ih h
        exact ⟨s :: earlier, s', later, rfl, hs', by rw [Targets.of, hs]; simp only [hof]⟩

/-- The statements that lead to files are found, if nothing fails. -/
theorem found_eq (h : (Targets.of resolve statements).failure = none) :
    (Targets.of resolve statements).found
      = statements.filterMap fun s => (targetOf? (resolve s.source)).map fun t => (t, s) := by
  induction statements with
  | nil => rfl
  | cons s rest ih =>
    rw [failure_eq_none_iff, List.forall_mem_cons, ← failure_eq_none_iff] at h
    obtain ⟨⟨r, hs⟩, hrest⟩ := h
    cases r with
    | file target => simp [Targets.of, targetOf?, hs, ih hrest]
    | external specifier => simp [Targets.of, targetOf?, hs, ih hrest]

end Targets

theorem filter_filterMap_target (resolve : String → Except BuildError Resolution)
    (statements : List ImportStatement) (t : ModuleId) :
    ((statements.filterMap fun s => (targetOf? (resolve s.source)).map fun t => (t, s)).filter
        fun f => f.1 == t).map Prod.snd
      = statements.filter fun s => targetOf? (resolve s.source) == some t := by
  induction statements with
  | nil => rfl
  | cons s rest ih =>
    cases htarget : targetOf? (resolve s.source) with
    | none => simp [htarget, ih]
    | some target =>
      by_cases heq : target = t
      · simp [htarget, heq, ih]
      · simp [htarget, heq, ih]

/-! ## Leaves -/

namespace FileSystem

variable {fs : FileSystem} {config : Config} {id t : ModuleId} {leaf : Leaf}

/-- The statements that lead to a file, among those of a module. -/
def statementsTo (fs : FileSystem) (vendorDirs : List String) (importer : Path) (t : ModuleId)
    (statements : List ImportStatement) : List ImportStatement :=
  statements.filter fun s => targetOf? (fs.resolve vendorDirs importer s.source) == some t

/-- **What the leaf of a module consists of**, record by record. -/
theorem importOf?_of_analyze (h : (fs.analyze config id).leaf = .ok leaf) :
    ∃ contents, fs.readStructure config.maxFileSize id.path = .ok (leaf.dialect, contents) ∧
      leaf.exports = contents.exports ∧
      (∀ s ∈ contents.imports, ∃ r, fs.resolve config.vendorDirs id.path s.source = .ok r) ∧
      ∀ t, leaf.importOf? t
        = ImportRecord.collect (fs.statementsTo config.vendorDirs id.path t contents.imports) := by
  obtain ⟨contents, found, hread, hof, _, hleaf⟩ := eq_of_analyze h
  have hfailure := congrArg Targets.failure hof
  have hfound : _ = found := (Targets.found_eq hfailure).symm.trans (congrArg Targets.found hof)
  refine ⟨contents, hread, ?_, Targets.failure_eq_none_iff.mp hfailure, fun t => ?_⟩
  · rw [hleaf]
  · rw [hleaf, Leaf.importOf?, get?_importRecords, ← hfound, filter_filterMap_target]
    rfl

/-- **When the analysis of a module succeeds**: it is read, and each of its statements leads
somewhere. -/
theorem exists_leaf_iff : (∃ leaf, (fs.analyze config id).leaf = .ok leaf) ↔
    ∃ dialect contents, fs.readStructure config.maxFileSize id.path = .ok (dialect, contents) ∧
      ∀ s ∈ contents.imports, ∃ r, fs.resolve config.vendorDirs id.path s.source = .ok r := by
  constructor
  · rintro ⟨leaf, h⟩
    obtain ⟨contents, hread, _, hresolve, _⟩ := importOf?_of_analyze h
    exact ⟨leaf.dialect, contents, hread, hresolve⟩
  · rintro ⟨dialect, contents, hread, hresolve⟩
    have hfailure := Targets.failure_eq_none_iff.mpr hresolve
    simp only [analyze, hread, hfailure]
    exact ⟨_, rfl⟩

end FileSystem

end ImportAtlas
