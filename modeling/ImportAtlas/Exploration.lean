import ImportAtlas.Draft
import ImportAtlas.FileSystem.Reach
import ImportAtlas.Tree

/-!
# Exploration — the modules that are reached from one of them

Imports are followed depth first, each module being analysed once, before what it imports.  Files
that are not modules are targets of edges, but they are not entered.
-/

namespace ImportAtlas

namespace Draft

theorem visited_addEdge (d : Draft) (e : Edge) : (d.addEdge e).visited = d.visited := by
  unfold addEdge
  split <;> rfl

@[simp] theorem visited_addFindings (d : Draft) (id : ModuleId) (findings : Findings) :
    (d.addFindings id findings).visited = d.visited := by
  have hfold (ts : List ModuleId) (d : Draft) :
      (ts.foldl (fun d target => d.addEdge ⟨id, target⟩) d).visited = d.visited := by
    induction ts generalizing d with
    | nil => rfl
    | cons t ts ih => rw [List.foldl_cons, ih, visited_addEdge]
  unfold addFindings
  simp only
  split
  · exact hfold ..
  · exact hfold ..

theorem isVisited_visit (d : Draft) (id other : ModuleId) :
    (d.visit id).isVisited other = (d.isVisited other || other == id) := by
  unfold visit
  split
  · rename_i h
    by_cases e : other = id <;> simp [e, h]
  · simp [isVisited, List.contains_eq_mem, Bool.decide_or, Bool.beq_eq_decide_eq]

/-- How many files can still be read for the first time. -/
noncomputable def unread (fs : FileSystem) (d : Draft) : Nat :=
  fs.files.countP fun p => !d.isVisited ⟨p⟩

theorem countP_lt_countP {α : Type} {f g : α → Bool} {l : List α} (h : ∀ a, f a → g a) {a : α}
    (ha : a ∈ l) (hf : f a = false) (hg : g a = true) : l.countP f < l.countP g := by
  induction l with
  | nil => simp at ha
  | cons b l ih =>
    have hle : l.countP f ≤ l.countP g := List.countP_mono_left fun a _ => h a
    rw [List.countP_cons, List.countP_cons]
    rcases List.mem_cons.1 ha with rfl | ha
    · simp only [hf, hg, if_true, Bool.false_eq_true, if_false]
      omega
    · have := ih ha
      by_cases hb : f b = true
      · simp only [hb, h b hb, if_true]
        omega
      · rw [if_neg hb]
        split <;> omega

/-- A visit to a file that can be read uses one up. -/
theorem unread_lt {fs : FileSystem} {d d' : Draft} {id : ModuleId} {bytes : ByteArray}
    (hclean : id.path.clean = id.path) (hread : fs.contents id.path = .ok bytes)
    (hnew : d.isVisited id = false)
    (hd : d'.visited = (d.visit id).visited) : d'.unread fs < d.unread fs := by
  have hmem : id.path ∈ fs.files := FileSystem.mem_files hclean hread
  have hvisited (other : ModuleId) : d'.isVisited other = (d.isVisited other || other == id) := by
    rw [← isVisited_visit, isVisited, hd, ← isVisited]
  unfold unread
  refine countP_lt_countP (fun p h => ?_) hmem ?_ ?_
  · rw [hvisited] at h
    cases hp : d.isVisited ⟨p⟩ <;> simp_all
  · simp [hvisited]
  · simpa using hnew

end Draft

namespace FileSystem

/-- **Follows the imports of modules**, depth first, the first module of the list first.  The draft is
what is known at the end, or when the analysis of a module fails. -/
def explore (fs : FileSystem) (config : Config) (todo : List ModuleId) (d : Draft) :
    Draft × Option BuildError :=
  match todo with
  | [] => (d, none)
  | next :: todo =>
    let id := ModuleId.ofPath next.path
    if _hnew : d.isVisited id then explore fs config todo d
    else match _h : (d.visit id).analyze fs config id with
      | (d', .error e) => (d', some e)
      | (d', .ok targets) =>
        explore fs config (targets.filter (·.path.isModuleFile) ++ todo) d'
termination_by (d.unread fs, todo.length)
decreasing_by
  · exact Prod.Lex.right _ (by simp)
  · refine Prod.Lex.left _ _ ?_
    simp only [Draft.analyze, Prod.mk.injEq] at _h
    obtain ⟨hd, hleaf⟩ := _h
    cases hok : (fs.analyze config id).leaf with
    | error e => simp [hok, Except.map] at hleaf
    | ok leaf =>
      obtain ⟨bytes, hread⟩ := contents_of_analyze hok
      have hnew : d.isVisited id = false := by simpa using _hnew
      exact @Draft.unread_lt fs d d' id bytes (Path.clean_clean _) hread hnew
        (by rw [← hd, Draft.visited_addFindings])

/-- The modules that are reached from the one at a path. -/
def graphFrom (fs : FileSystem) (config : Config) (entry : Path) : Except BuildError ModuleGraph :=
  let root := ModuleId.ofPath entry
  match fs.explore config [root] .empty with
  | (_, some e) => .error e
  | (d, none) =>
    let modules := d.link.modules
    match modules.get? root with
    | some leaf => .ok ⟨leaf, modules⟩
    | none => .error (.fileSystem (.other s!"entry module {root} was not registered"))

/-- **The graph of all modules that an entry module leads to.** -/
def moduleGraph (fs : FileSystem) (config : Config) (entry : Path) :
    Except BuildError ModuleGraph :=
  (fs.absolute entry).mapError .fileSystem >>= fs.graphFrom config

end FileSystem

end ImportAtlas
