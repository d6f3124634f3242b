import ImportAtlas.Path.Lemmas
import Mathlib.Data.List.Basic

/-!
# Proofs/Components — the components of a clean path are the steps of its route

A clean path is spelled as its route is, so that its components can be read off the steps
(`components_of_clean`).  What stands above its last component are its `directories`: those of a
child are the components of the parent (`directories_child`), and an extension behind a path changes
none of them (`directories_appendExtension`).  All the components determine a clean path
(`eq_of_components`).
-/

namespace ImportAtlas.Path

variable {p q : Path} {name step : String} {steps : List String} {absolute : Bool}

/-- The component that a step of a route is. -/
def Component.ofStep (step : String) : Component := if step == ".." then .up else .name step

/-- The components of a place; a path that leads nowhere has none of these. -/
def Route.components (r : Route) : List Component :=
  (if r.absolute then [.root] else []) ++ r.steps.map .ofStep

/-- **The directories on the way to a path**: all of its components but the last. -/
def directories (p : Path) : List Component := p.components.dropLast

/-- A path ends in a name if the name stands behind its directories. -/
theorem fileName?_eq_some_iff :
    p.fileName? = some name ↔ p.components = p.directories ++ [.name name] := by
  rw [fileName?, directories]
  constructor
  · intro h
    split at h
    · rename_i text hlast
      obtain rfl := Option.some.inj h
      obtain ⟨front, hfront⟩ := List.getLast?_eq_some_iff.mp hlast
      rw [hfront, List.dropLast_concat]
    · nomatch h
  · intro h
    rw [h, List.getLast?_concat]

/-! ## Clean paths -/

theorem ofPiece?_of_canonical (h : Canonical absolute steps) (hstep : step ∈ steps) :
    Component.ofPiece? step = some (.ofStep step) := by
  obtain ⟨hempty, hdot, _⟩ := h.forall step hstep
  simp only [Component.ofPiece?, Component.ofStep, beq_iff_eq, Bool.or_eq_true, hempty, hdot,
    or_self, if_false]
  split <;> rfl

theorem filterMap_ofPiece?_of_canonical (h : Canonical absolute steps.reverse) :
    steps.filterMap Component.ofPiece? = steps.map .ofStep := by
  rw [← List.filterMap_eq_map]
  refine List.filterMap_congr fun step hstep => ?_
  exact ofPiece?_of_canonical h (List.mem_reverse.mpr hstep)

/-- The pieces of a clean path are the steps of its route, but for what marks the root and the dot
of a path without steps. -/
theorem pieces_of_clean (h : p.clean = p) : p.pieces =
    if p.isAbsolute then "" :: (if p.route.steps = [] then [""] else p.route.steps)
    else if p.route.steps = [] then ["."] else p.route.steps := by
  have hslash : ∀ step ∈ p.route.steps, '/' ∉ step.toList := fun step hstep =>
    (p.canonical_route.forall step (List.mem_reverse.mpr hstep)).2.2
  have hpath : p = p.route.path := h.symm
  have habsolute : p.route.absolute = p.isAbsolute := rfl
  rw [Route.path, habsolute] at hpath
  generalize p.route.steps = steps at *
  split
  · rename_i hroot
    rw [hpath, if_pos hroot, pieces_slash_intercalate hslash]
  · rename_i hroot
    rw [if_neg hroot] at hpath
    split
    · rename_i hnil
      subst hnil
      rw [hpath]
      rfl
    · rename_i hne
      rw [hpath, if_neg (by simpa using hne), pieces_intercalate hne hslash]

/-- **The components of a clean path** are those of its route; a path without steps that does not
start at the root is a dot. -/
theorem components_of_clean (h : p.clean = p) :
    p.components = if p.route = ⟨false, []⟩ then [.here] else p.route.components := by
  have hsteps := filterMap_ofPiece?_of_canonical p.canonical_route
  have hcanonical := p.canonical_route
  have hroute : p.route = ⟨p.isAbsolute, p.route.steps⟩ := rfl
  rw [components, leading, pieces_of_clean h, hroute, Route.components]
  generalize p.route.steps = steps at *
  cases p.isAbsolute with
  | true =>
    by_cases hnil : steps = [] <;> simp [hnil, hsteps, Component.ofPiece?]
  | false =>
    cases steps with
    | nil => simp [Component.ofPiece?]
    | cons x xs =>
      have hdot : x ≠ "." := (hcanonical.forall x (by simp)).2.1
      simp [hdot, hsteps]

theorem Component.ofStep_inj {a b : String} (h : ofStep a = ofStep b) : a = b := by
  rw [ofStep, ofStep] at h
  by_cases ha : a = ".." <;> by_cases hb : b = ".." <;> simp_all

/-- Neither the root nor a dot is a step. -/
theorem Component.notMem_map_ofStep (steps : List String) :
    root ∉ steps.map .ofStep ∧ here ∉ steps.map .ofStep := by
  simp only [List.mem_map, ofStep, not_exists, not_and]
  constructor <;> intro step _ <;> split <;> simp

theorem Route.root_mem_components_iff {r : Route} :
    .root ∈ r.components ↔ r.absolute = true := by
  rw [components, List.mem_append, or_iff_left (Component.notMem_map_ofStep r.steps).1]
  split <;> simp_all

theorem Route.here_notMem_components (r : Route) : .here ∉ r.components := by
  rw [components, List.mem_append, or_iff_left (Component.notMem_map_ofStep r.steps).2]
  split <;> simp

/-- The components of a place determine it. -/
theorem Route.components_inj {r s : Route} (h : r.components = s.components) : r = s := by
  have habsolute : r.absolute = s.absolute := by
    rw [Bool.eq_iff_iff, ← root_mem_components_iff, h, root_mem_components_iff]
  rw [components, components, habsolute, List.append_cancel_left_eq] at h
  have hsteps : r.steps = s.steps :=
    List.map_injective_iff.mpr (fun _ _ => Component.ofStep_inj) h
  cases r
  cases s
  rw [mk.injEq]
  exact ⟨habsolute, hsteps⟩

/-- **Clean paths with the same components are the same path.** -/
theorem eq_of_components (hp : p.clean = p) (hq : q.clean = q) (h : p.components = q.components) :
    p = q := by
  have hroute : p.route = q.route := by
    rw [components_of_clean hp, components_of_clean hq] at h
    split at h <;> split at h
    · simp_all
    · exact absurd (h ▸ List.mem_singleton_self _) q.route.here_notMem_components
    · exact absurd (h ▸ List.mem_singleton_self _) p.route.here_notMem_components
    · exact Route.components_inj h
  rw [← hp, ← hq, clean, clean, hroute]

/-- Of a place and the path that is spelled for it, the place has all components, or all but the dot
that is the only one. -/
theorem components_route (h : p.clean = p) :
    p.route.components = p.components ∨ p.route.components = p.directories := by
  rw [directories, components_of_clean h]
  split
  · rename_i hroute
    rw [hroute]
    exact Or.inr rfl
  · exact Or.inl rfl

/-- The components of the place of a clean path start those of the path. -/
theorem prefix_components_route (h : p.clean = p) : p.route.components <+: p.components := by
  rcases components_route h with hroute | hroute
  · exact hroute ▸ List.prefix_refl _
  · exact hroute ▸ List.dropLast_prefix _

/-- What stands above the last step of a clean path. -/
theorem directories_of_route {a : Bool} (h : p.clean = p) (hroute : p.route = ⟨a, steps ++ [name]⟩) :
    p.directories = Route.components ⟨a, steps⟩ := by
  have hne : (⟨a, steps ++ [name]⟩ : Route) ≠ ⟨false, []⟩ := by simp
  rw [directories, components_of_clean h, hroute, if_neg hne, Route.components, Route.components,
    List.map_append, ← List.append_assoc]
  exact List.dropLast_concat

/-- A clean path whose last step is a name ends in this name. -/
theorem fileName?_of_route {a : Bool} (h : p.clean = p) (hroute : p.route = ⟨a, steps ++ [name]⟩)
    (hname : name ≠ "..") : p.fileName? = some name := by
  have hne : (⟨a, steps ++ [name]⟩ : Route) ≠ ⟨false, []⟩ := by simp
  have hstep : Component.ofStep name = .name name := if_neg (by simpa using hname)
  rw [fileName?_eq_some_iff, directories_of_route h hroute, components_of_clean h, hroute,
    if_neg hne, Route.components, Route.components, List.map_append, List.append_assoc,
    List.map_singleton, hstep]

/-- **Above a child stands the place of its parent.** -/
theorem directories_child (h : isPlainName name = true) :
    (p.child name).clean.directories = p.route.components := by
  have hroute : (p.child name).clean.route = ⟨p.isAbsolute, p.route.steps ++ [name]⟩ := by
    rw [route_clean, steps_child h]
  exact directories_of_route (clean_clean _) hroute

theorem ne_up_of_isPlainName (h : isPlainName name = true) : name ≠ ".." := by
  rintro rfl
  nomatch h

theorem ofStep_of_plain (h : isPlainName name = true) : Component.ofStep name = .name name :=
  if_neg (by simpa using ne_up_of_isPlainName h)

/-- A child stands one component below the place of its parent. -/
theorem components_route_child (h : isPlainName name = true) :
    (p.child name).route.components = p.route.components ++ [.name name] := by
  have hroute : p.route = ⟨p.isAbsolute, p.route.steps⟩ := rfl
  rw [steps_child h, hroute, Route.components, Route.components, List.map_append,
    List.append_assoc, List.map_singleton, ofStep_of_plain h]

/-- The path of canonical steps is clean. -/
theorem clean_path {r : Route} (h : Canonical r.absolute r.steps.reverse) :
    r.path.clean = r.path := by
  rw [clean, route_path h]

/-! ## Parents -/

theorem upToLastStep_concat (h : (Component.ofPiece? step).isSome = true) (ps : List String) :
    upToLastStep absolute (ps ++ [step]) = ps ++ [step] := by
  have hpieces : (ps ++ [step]).zipIdx.reverse = (step, ps.length) :: ps.zipIdx.reverse := by
    simp [List.zipIdx_append]
  have hstep : isStep absolute ps.length step = true := by simp [isStep, h]
  rw [upToLastStep, hpieces, List.dropWhile_cons_of_neg (by simp [hstep])]
  simp [List.zipIdx_map_fst]

/-- **The parent of a clean path** is the path of the steps before the last; one that would be a dot
is left empty. -/
theorem parent_of_route {a : Bool} (h : p.clean = p) (hroute : p.route = ⟨a, steps ++ [step]⟩) :
    p.parent = if a = false ∧ steps = [] then ⟨""⟩ else Route.path ⟨a, steps⟩ := by
  have hcanonical := p.canonical_route
  have hpieces := pieces_of_clean h
  have habsolute : p.isAbsolute = a := congrArg Route.absolute hroute
  rw [hroute] at hcanonical hpieces
  have hpiece : ∀ x ∈ steps ++ [step], (Component.ofPiece? x).isSome = true := fun x hx => by
    rw [ofPiece?_of_canonical hcanonical (List.mem_reverse.mpr hx)]
    rfl
  have hlast := hpiece step (by simp)
  have habove : upToLastStep a steps = steps := by
    rcases List.eq_nil_or_concat' steps with rfl | ⟨front, last, rfl⟩
    · rfl
    · exact upToLastStep_concat (hpiece last (by simp)) front
  cases a with
  | true =>
    have hpieces : p.pieces = ("" :: steps) ++ [step] := by
      rw [hpieces, if_pos habsolute, if_neg (by simp), List.cons_append]
    rw [parent, parent?, hpieces, habsolute, upToLastStep_concat hlast, List.dropLast_concat]
    rcases List.eq_nil_or_concat' steps with rfl | ⟨front, last, rfl⟩
    · rfl
    · rw [← List.cons_append, upToLastStep_concat (hpiece last (by simp))]
      simp [Route.path, String.intercalate_cons_of_ne_nil]
  | false =>
    have hpieces : p.pieces = steps ++ [step] := by
      rw [hpieces, if_neg (by simp [habsolute]), if_neg (by simp)]
    rw [parent, parent?, hpieces, habsolute, upToLastStep_concat hlast, List.dropLast_concat, habove]
    cases steps with
    | nil => rfl
    | cons x xs => simp [Route.path]

/-- **The components of the parent** are the directories on the way to a clean path. -/
theorem components_parent (h : p.clean = p) : p.parent.components = p.directories := by
  rcases List.eq_nil_or_concat' p.route.steps with hnil | ⟨steps, step, hsteps⟩
  · have hpath : p = Route.path ⟨p.isAbsolute, []⟩ := by
      rw [← hnil]
      exact h.symm
    cases hroot : p.isAbsolute with
    | true =>
      rw [hroot] at hpath
      subst hpath
      decide +kernel
    | false =>
      rw [hroot] at hpath
      subst hpath
      decide +kernel
  · have hroute : p.route = ⟨p.isAbsolute, steps ++ [step]⟩ := by
      rw [← hsteps]
      rfl
    have hcanonical : Canonical p.isAbsolute steps.reverse := by
      have hall := p.canonical_route
      rw [hroute, List.reverse_concat] at hall
      exact hall.2.2
    rw [parent_of_route h hroute, directories_of_route h hroute]
    split
    · rename_i hempty
      rw [hempty.1, hempty.2]
      rfl
    · rename_i hne
      have hplace : (⟨p.isAbsolute, steps⟩ : Route) ≠ ⟨false, []⟩ := by simpa using hne
      rw [components_of_clean (clean_path hcanonical), route_path hcanonical, if_neg hplace]

/-! ## Extensions -/

theorem append_intercalate (steps : List String) (step ending : String) :
    "/".intercalate (steps ++ [step]) ++ ending = "/".intercalate (steps ++ [step ++ ending]) := by
  cases steps with
  | nil => simp
  | cons x xs =>
    rw [String.intercalate_append_of_ne_nil (by simp) (by simp),
      String.intercalate_append_of_ne_nil (by simp) (by simp)]
    simp [String.append_assoc]

/-- An extension goes to the last step of a path. -/
theorem appendExtension_path (absolute : Bool) (steps : List String) (step extension : String) :
    (Route.path ⟨absolute, steps ++ [step]⟩).appendExtension extension
      = Route.path ⟨absolute, steps ++ [step ++ "." ++ extension]⟩ := by
  cases absolute <;>
    simp [Route.path, appendExtension, String.append_assoc, ← append_intercalate]

theorem isPlainName_append_extension {front extension : String} (hfront : '/' ∉ front.toList)
    (h : isPlainName extension = true) : isPlainName (front ++ "." ++ extension) = true := by
  simp only [isPlainName, Bool.and_eq_true, bne_iff_ne, ne_eq, Bool.not_eq_true',
    List.contains_eq_mem, decide_eq_false_iff_not, ← String.toList_inj, String.toList_append] at h ⊢
  obtain ⟨⟨⟨hempty, hdot⟩, _⟩, hslash⟩ := h
  have hdots : ".".toList = ['.'] := rfl
  have hup : "..".toList = ['.', '.'] := rfl
  rw [hdots] at hdot ⊢
  rw [hup]
  refine ⟨⟨⟨by simp, ?_⟩, ?_⟩, ?_⟩
  · cases hlist : front.toList with
    | nil => simpa using hempty
    | cons c cs => simp
  · cases hlist : front.toList with
    | nil => simpa using hdot
    | cons c cs =>
      cases cs with
      | nil => simpa using fun _ => hempty
      | cons d ds => simp
  · simp [hfront, hslash]

theorem Canonical.cons_plain (h : Canonical absolute steps) (hname : isPlainName name = true) :
    Canonical absolute (name :: steps) := by
  simp only [isPlainName, Bool.and_eq_true, bne_iff_ne, ne_eq, Bool.not_eq_true',
    List.contains_eq_mem, decide_eq_false_iff_not] at hname
  obtain ⟨⟨⟨hempty, hdot⟩, hup⟩, hslash⟩ := hname
  exact ⟨⟨hempty, hdot, hslash⟩, fun h => absurd h hup, h⟩

theorem canonical_append_extension {front extension : String}
    (hsteps : Canonical absolute steps.reverse) (hfront : '/' ∉ front.toList)
    (h : isPlainName extension = true) :
    Canonical absolute (steps ++ [front ++ "." ++ extension]).reverse := by
  rw [List.reverse_concat]
  exact hsteps.cons_plain (isPlainName_append_extension hfront h)

/-- **A clean path with an extension behind it is the path of a route**: the extension goes to the last
step, and to a step of its own behind the root or the dot. -/
theorem exists_appendExtension_eq (h : p.clean = p) (extension : String) : ∃ steps front,
    Canonical p.isAbsolute steps.reverse ∧ '/' ∉ front.toList ∧
      p.appendExtension extension
        = Route.path ⟨p.isAbsolute, steps ++ [front ++ "." ++ extension]⟩ ∧
      (p.route = ⟨p.isAbsolute, steps⟩ ∨ ∃ step, p.route = ⟨p.isAbsolute, steps ++ [step]⟩) := by
  have hpath : Route.path ⟨p.isAbsolute, p.route.steps⟩ = p := h
  have hcanonical := p.canonical_route
  rcases List.eq_nil_or_concat' p.route.steps with hnil | ⟨steps, step, hsteps⟩
  · have hroute : p.route = ⟨p.isAbsolute, []⟩ := by
      rw [← hnil]
      rfl
    rw [hnil] at hpath
    refine ⟨[], if p.isAbsolute then "" else ".", trivial, ?_, ?_, Or.inl hroute⟩
    · split <;> decide
    · conv_lhs => rw [← hpath]
      cases p.isAbsolute <;> simp [Route.path, appendExtension, ← String.append_assoc]
  · have hroute : p.route = ⟨p.isAbsolute, steps ++ [step]⟩ := by
      rw [← hsteps]
      rfl
    rw [hroute, List.reverse_concat] at hcanonical
    rw [hsteps] at hpath
    refine ⟨steps, step, hcanonical.2.2, hcanonical.1.2.2, ?_, Or.inr ⟨step, hroute⟩⟩
    conv_lhs => rw [← hpath]
    exact appendExtension_path ..

/-- A clean path stays clean with an extension behind it. -/
theorem clean_appendExtension {extension : String} (h : p.clean = p)
    (hplain : isPlainName extension = true) :
    (p.appendExtension extension).clean = p.appendExtension extension := by
  obtain ⟨steps, front, hsteps, hfront, hpath, _⟩ := exists_appendExtension_eq h extension
  rw [hpath]
  exact clean_path (canonical_append_extension hsteps hfront hplain)

/-- **An extension behind a path adds no directory**, but for that of the root or of the dot. -/
theorem directories_appendExtension {extension : String} (h : p.clean = p)
    (hplain : isPlainName extension = true) :
    (p.appendExtension extension).clean.directories = p.route.components ∨
      (p.appendExtension extension).clean.directories = p.directories := by
  obtain ⟨steps, front, hsteps, hfront, hpath, hroute⟩ := exists_appendExtension_eq h extension
  have hcanonical := canonical_append_extension hsteps hfront hplain
  have hspelled : (p.appendExtension extension).clean.directories
      = Route.components ⟨p.isAbsolute, steps⟩ := by
    rw [hpath, clean_path hcanonical]
    exact directories_of_route (clean_path hcanonical) (route_path hcanonical)
  rcases hroute with hroute | ⟨step, hroute⟩
  · exact Or.inl (by rw [hspelled, hroute])
  · exact Or.inr (by rw [hspelled, directories_of_route h hroute])

end ImportAtlas.Path
