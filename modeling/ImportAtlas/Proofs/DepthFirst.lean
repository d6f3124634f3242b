import ImportAtlas.Exploration

/-!
# Proofs/DepthFirst — the preorder of a depth-first search

`DepthFirst succ seen todo order` says that a search which has seen some vertices and still has to
go to others comes to new ones in a given order.  There is exactly one such order
(`DepthFirst.unique`, `DepthFirst.exists_order`) wherever only finitely many vertices have
successors at all; it comes to no vertex twice, and to precisely what is reached.
-/

namespace ImportAtlas

variable {α : Type} {succ : α → List α} {seen todo order : List α} {v w : α}

/-- **The order in which a depth-first search comes to new vertices.**  A vertex comes before what
is found below it, and all that before whatever is found from the vertices behind it. -/
inductive DepthFirst (succ : α → List α) : List α → List α → List α → Prop
  | nil {seen : List α} : DepthFirst succ seen [] []
  | skip {seen todo order : List α} {v : α} (hv : v ∈ seen)
      (later : DepthFirst succ seen todo order) : DepthFirst succ seen (v :: todo) order
  | enter {seen todo below after : List α} {v : α} (hv : v ∉ seen)
      (inner : DepthFirst succ (seen ++ [v]) (succ v) below)
      (later : DepthFirst succ (seen ++ v :: below) todo after) :
      DepthFirst succ seen (v :: todo) (v :: below ++ after)

namespace DepthFirst

/-- **The order of a search is determined** by what it has seen and where it has to go. -/
theorem unique {order' : List α} (h : DepthFirst succ seen todo order)
    (h' : DepthFirst succ seen todo order') : order = order' := by
  induction h generalizing order' with
  | nil =>
    cases h'
    rfl
  | skip hv _ ih =>
    cases h' with
    | skip _ later => exact ih later
    | enter hv' _ _ => exact absurd hv hv'
  | enter hv _ _ ihInner ihLater =>
    cases h' with
    | skip hv' _ => exact absurd hv' hv
    | enter _ inner later =>
      obtain rfl := ihInner inner
      rw [ihLater later]

/-- A search comes to no vertex that it has seen before. -/
theorem notMem_seen (h : DepthFirst succ seen todo order) (hw : w ∈ order) : w ∉ seen := by
  induction h with
  | nil => simp at hw
  | skip _ _ ih => exact ih hw
  | enter hv _ _ ihInner ihLater =>
    rcases List.mem_append.mp hw with hw | hw
    · rcases List.mem_cons.mp hw with rfl | hw
      · exact hv
      · exact fun hseen => ihInner hw (List.mem_append_left _ hseen)
    · exact fun hseen => ihLater hw (List.mem_append_left _ hseen)

/-- **A search comes to no vertex twice.** -/
theorem nodup (h : DepthFirst succ seen todo order) : order.Nodup := by
  induction h with
  | nil => exact List.nodup_nil
  | skip _ _ ih => exact ih
  | enter _ inner later ihInner ihLater =>
    refine List.nodup_append.mpr ⟨List.nodup_cons.mpr ⟨fun hv => ?_, ihInner⟩, ihLater, ?_⟩
    · exact inner.notMem_seen hv (List.mem_append_right _ List.mem_cons_self)
    · rintro x hx y hy rfl
      exact later.notMem_seen hy (List.mem_append_right _ hx)

/-- A search goes wherever it has to, unless it was there before. -/
theorem mem_of_mem_todo (h : DepthFirst succ seen todo order) (hw : w ∈ todo) :
    w ∈ seen ∨ w ∈ order := by
  induction h with
  | nil => simp at hw
  | skip hv _ ih =>
    rcases List.mem_cons.mp hw with rfl | hw
    · exact Or.inl hv
    · exact ih hw
  | enter _ _ _ _ ihLater =>
    rcases List.mem_cons.mp hw with rfl | hw
    · exact Or.inr (by simp)
    · rcases ihLater hw with hw | hw
      · rcases List.mem_append.mp hw with hw | hw
        · exact Or.inl hw
        · exact Or.inr (List.mem_append_left _ hw)
      · exact Or.inr (List.mem_append_right _ hw)

/-- A search leaves out no successor of what it comes to. -/
theorem mem_of_mem_succ (h : DepthFirst succ seen todo order) (hv : v ∈ order) (hw : w ∈ succ v) :
    w ∈ seen ∨ w ∈ order := by
  induction h with
  | nil => simp at hv
  | skip _ _ ih => exact ih hv
  | @enter seen todo below after u _ inner _ ihInner ihLater =>
    have hsplit (hw : w ∈ seen ++ [u] ∨ w ∈ below) : w ∈ seen ∨ w ∈ u :: below ++ after := by
      rcases hw with hw | hw
      · rcases List.mem_append.mp hw with hw | hw
        · exact Or.inl hw
        · exact Or.inr (by simp_all)
      · exact Or.inr (by simp [hw])
    rcases List.mem_append.mp hv with hv | hv
    · rcases List.mem_cons.mp hv with rfl | hv
      · exact hsplit (inner.mem_of_mem_todo hw)
      · exact hsplit (ihInner hv)
    · rcases ihLater hv with hw | hw
      · rcases List.mem_append.mp hw with hw | hw
        · exact Or.inl hw
        · exact Or.inr (List.mem_append_left _ hw)
      · exact Or.inr (List.mem_append_right _ hw)

/-- A property of the vertices to go to that passes on to successors holds wherever the search
comes. -/
theorem forall_mem {motive : α → Prop} (h : DepthFirst succ seen todo order)
    (htodo : ∀ v ∈ todo, motive v) (hsucc : ∀ v w, motive v → w ∈ succ v → motive w) :
    ∀ v ∈ order, motive v := by
  induction h with
  | nil => simp
  | skip _ _ ih => exact ih fun v hv => htodo v (List.mem_cons_of_mem _ hv)
  | @enter seen todo below after u _ _ _ ihInner ihLater =>
    have hu : motive u := htodo u List.mem_cons_self
    intro v hv
    rcases List.mem_append.mp hv with hv | hv
    · rcases List.mem_cons.mp hv with rfl | hv
      · exact hu
      · exact ihInner (fun w hw => hsucc u w hu hw) v hv
    · exact ihLater (fun w hw => htodo w (List.mem_cons_of_mem _ hw)) v hv

/-! ## Existence -/

section Existence

variable [DecidableEq α] (vertices : List α)

/-- How many of the vertices are still to be seen. -/
def unseen (seen : List α) : Nat := vertices.countP fun v => !seen.contains v

theorem unseen_append_le (seen more : List α) :
    unseen vertices (seen ++ more) ≤ unseen vertices seen := by
  refine List.countP_mono_left fun v _ h => ?_
  simp only [Bool.not_eq_true', List.contains_eq_mem, decide_eq_false_iff_not] at h ⊢
  exact fun hv => h (List.mem_append_left _ hv)

theorem unseen_append_lt (hv : v ∈ vertices) (hnew : v ∉ seen) (more : List α) :
    unseen vertices (seen ++ v :: more) < unseen vertices seen := by
  refine Draft.countP_lt_countP (fun w h => ?_) hv (by simp) (by simpa using hnew)
  simp only [Bool.not_eq_true', List.contains_eq_mem, decide_eq_false_iff_not] at h ⊢
  exact fun hw => h (List.mem_append_left _ hw)

theorem lex_of_le_of_lt {a b c d : Nat} (hac : a ≤ c) (hbd : b < d) :
    Prod.Lex (· < ·) (· < ·) (a, b) (c, d) := by
  rcases Nat.lt_or_eq_of_le hac with h | rfl
  · exact Prod.Lex.left _ _ h
  · exact Prod.Lex.right _ hbd

/-- **A search comes to an end** if all vertices with successors that it may come to are in a
list. -/
theorem exists_order (hsucc : ∀ v, ∀ w ∈ succ v, succ w ≠ [] → w ∈ vertices) (seen todo : List α)
    (htodo : ∀ w ∈ todo, succ w ≠ [] → w ∈ vertices) : ∃ order, DepthFirst succ seen todo order :=
  match todo with
  | [] => ⟨[], .nil⟩
  | v :: todo => by
    have hrest : ∀ w ∈ todo, succ w ≠ [] → w ∈ vertices := fun w hw =>
      htodo w (List.mem_cons_of_mem _ hw)
    by_cases hv : v ∈ seen
    · obtain ⟨order, later⟩ := exists_order hsucc seen todo hrest
      exact ⟨order, .skip hv later⟩
    · obtain ⟨below, inner⟩ := exists_order hsucc (seen ++ [v]) (succ v) (hsucc v)
      obtain ⟨after, later⟩ := exists_order hsucc (seen ++ v :: below) todo hrest
      exact ⟨_, .enter hv inner later⟩
termination_by (unseen vertices seen, todo.length)
decreasing_by
  · exact Prod.Lex.right _ (by simp)
  · cases hv' : succ v with
    | nil => exact lex_of_le_of_lt (unseen_append_le ..) (by simp)
    | cons w ws =>
      have hmem : v ∈ vertices := htodo v List.mem_cons_self (by simp [hv'])
      exact Prod.Lex.left _ _ (unseen_append_lt vertices hmem hv [])
  · exact lex_of_le_of_lt (unseen_append_le ..) (by simp)

end Existence

end DepthFirst

end ImportAtlas
