import ImportAtlas.Path

/-!
# Path/Lemmas — cleaning is idempotent, and children are one step deeper

The steps of a route are *canonical*: no empty piece, no dot, and two dots only before everything
else.  Reading the spelling of a canonical route gives the route back (`route_path`), hence
`clean_clean`; and `depth_child` bounds every descent into directories.
-/

namespace ImportAtlas.Path

/-- Whether a text can be the name of an entry of a directory. -/
def isPlainName (name : String) : Bool :=
  name != "" && name != "." && name != ".." && !name.toList.contains '/'

/-- The number of steps to a place. -/
def depth (p : Path) : Nat := p.route.steps.length

/-! ## Splitting at slashes -/

theorem splitSlash_ne_nil (l : List Char) : splitSlash l ≠ [] := by
  cases l with
  | nil => simp [splitSlash]
  | cons c r =>
    unfold splitSlash
    split
    · simp
    · split <;> simp

theorem splitSlash_append_slash (a b : List Char) :
    splitSlash (a ++ '/' :: b) = splitSlash a ++ splitSlash b := by
  induction a with
  | nil => simp [splitSlash]
  | cons c r ih =>
    simp only [List.cons_append, splitSlash, ih]
    split
    · simp
    · cases h : splitSlash r with
      | nil => exact absurd h (splitSlash_ne_nil r)
      | cons piece pieces => simp

theorem splitSlash_of_not_mem {l : List Char} (h : '/' ∉ l) : splitSlash l = [l] := by
  induction l with
  | nil => rfl
  | cons c r ih =>
    simp only [List.mem_cons, not_or] at h
    have hc : (c == '/') = false := by simpa using fun e => h.1 e.symm
    simp [splitSlash, hc, ih h.2]

theorem not_mem_of_mem_splitSlash {l piece : List Char} (h : piece ∈ splitSlash l) :
    '/' ∉ piece := by
  induction l generalizing piece with
  | nil => simp_all [splitSlash]
  | cons c r ih =>
    unfold splitSlash at h
    split at h
    · rcases List.mem_cons.1 h with rfl | h
      · simp
      · exact ih h
    · rename_i hc
      split at h
      · simp only [List.mem_singleton] at h
        subst h
        simpa using fun e : '/' = c => hc (by simpa using e.symm)
      · rename_i piece' pieces e
        rcases List.mem_cons.1 h with rfl | h
        · have : '/' ∉ piece' := ih (by simp [e])
          simp only [List.mem_cons, not_or]
          exact ⟨fun e => hc (by simp [← e]), this⟩
        · exact ih (by simp [e, h])

theorem splitSlash_intercalate {ls : List (List Char)} (hne : ls ≠ [])
    (h : ∀ l ∈ ls, '/' ∉ l) : splitSlash (['/'].intercalate ls) = ls := by
  induction ls with
  | nil => exact absurd rfl hne
  | cons l ls ih =>
    cases ls with
    | nil => simpa [List.intercalate] using splitSlash_of_not_mem (h l (by simp))
    | cons m ms =>
      have step : ['/'].intercalate (l :: m :: ms) = l ++ '/' :: ['/'].intercalate (m :: ms) := by
        simp [List.intercalate, List.intersperse]
      rw [step, splitSlash_append_slash, splitSlash_of_not_mem (h l (by simp)),
        ih (by simp) fun x hx => h x (by simp [hx])]
      rfl

theorem pieces_not_mem (p : Path) {piece : String} (h : piece ∈ p.pieces) :
    '/' ∉ piece.toList := by
  obtain ⟨l, hl, rfl⟩ := List.mem_map.1 h
  simpa using not_mem_of_mem_splitSlash hl

/-! ## Canonical steps -/

/-- Steps, backwards, of a route: none is empty, a dot or holds a slash, and two dots stand only
before all names, in a route that does not start at the root. -/
def Canonical (absolute : Bool) : List String → Prop
  | [] => True
  | x :: xs =>
    (x ≠ "" ∧ x ≠ "." ∧ '/' ∉ x.toList) ∧
      (x = ".." → absolute = false ∧ ∀ y ∈ xs, y = "..") ∧ Canonical absolute xs

theorem Canonical.of_append {absolute : Bool} {a b : List String}
    (h : Canonical absolute (a ++ b)) : Canonical absolute b := by
  induction a with
  | nil => exact h
  | cons x xs ih => exact ih h.2.2

theorem Canonical.forall {absolute : Bool} {l : List String} (h : Canonical absolute l) :
    ∀ x ∈ l, x ≠ "" ∧ x ≠ "." ∧ '/' ∉ x.toList := by
  induction l with
  | nil => simp
  | cons x xs ih =>
    intro y hy
    rcases List.mem_cons.1 hy with rfl | hy
    · exact h.1
    · exact ih h.2.2 y hy

theorem Canonical.extendRoute {absolute : Bool} {steps : List String} {piece : String}
    (h : Canonical absolute steps) (hp : '/' ∉ piece.toList) :
    Canonical absolute (extendRoute absolute steps piece) := by
  unfold Path.extendRoute
  split
  · exact h
  · rename_i hdot
    simp only [Bool.or_eq_true, beq_iff_eq, not_or] at hdot
    split
    · cases steps with
      | nil => cases absolute <;> simp [Canonical]
      | cons last before =>
        simp only
        split
        · rename_i hl
          have hl : last = ".." := by simpa using hl
          subst hl
          obtain ⟨ha, hall⟩ := h.2.1 rfl
          refine ⟨by decide, fun _ => ⟨ha, ?_⟩, h⟩
          simpa using hall
        · exact h.2.2
    · rename_i hup
      exact ⟨⟨hdot.1, hdot.2, hp⟩, fun e => absurd (by simpa using e) hup, h⟩

theorem extendRoute_of_canonical {absolute : Bool} {steps : List String} {piece : String}
    (h : Canonical absolute (piece :: steps)) :
    extendRoute absolute steps piece = piece :: steps := by
  obtain ⟨⟨h0, h1, _⟩, hup, hs⟩ := h
  unfold extendRoute
  rw [if_neg (by simp [h0, h1])]
  split
  · rename_i e
    have e : piece = ".." := by simpa using e
    subst e
    obtain ⟨ha, hall⟩ := hup rfl
    cases steps with
    | nil => simp [ha]
    | cons last before => simp [hall last (by simp)]
  · rfl

theorem canonical_foldl {absolute : Bool} {ps steps : List String} (h : Canonical absolute steps)
    (hp : ∀ p ∈ ps, '/' ∉ p.toList) :
    Canonical absolute (ps.foldl (extendRoute absolute) steps) := by
  induction ps generalizing steps with
  | nil => exact h
  | cons p ps ih =>
    exact ih (h.extendRoute (hp p (by simp))) fun q hq => hp q (by simp [hq])

theorem foldl_extendRoute {absolute : Bool} {ps steps : List String}
    (h : Canonical absolute (ps.reverse ++ steps)) :
    ps.foldl (extendRoute absolute) steps = ps.reverse ++ steps := by
  induction ps generalizing steps with
  | nil => rfl
  | cons p ps ih =>
    have h' : Canonical absolute (ps.reverse ++ p :: steps) := by simpa using h
    simp only [List.foldl_cons, extendRoute_of_canonical h'.of_append, ih h']
    simp

/-- The steps of every route are canonical. -/
theorem canonical_route (p : Path) : Canonical p.route.absolute p.route.steps.reverse := by
  have h : Canonical p.isAbsolute (p.pieces.foldl (Path.extendRoute p.isAbsolute) []) :=
    canonical_foldl trivial fun q hq => p.pieces_not_mem hq
  simpa [route] using h

/-! ## Cleaning -/

theorem pieces_intercalate {steps : List String} (hne : steps ≠ [])
    (h : ∀ x ∈ steps, '/' ∉ x.toList) : (Path.mk ("/".intercalate steps)).pieces = steps := by
  have hsplit : splitSlash (['/'].intercalate (steps.map String.toList)) = steps.map String.toList :=
    splitSlash_intercalate (by simpa using hne) (by simpa using h)
  have hslash : "/".toList = ['/'] := rfl
  simp only [pieces, String.toList_intercalate, hslash, hsplit, List.map_map]
  exact (List.map_congr_left fun _ _ => String.ofList_toList).trans (List.map_id _)

theorem pieces_slash_intercalate {steps : List String} (h : ∀ x ∈ steps, '/' ∉ x.toList) :
    (Path.mk ("/" ++ "/".intercalate steps)).pieces = "" :: if steps = [] then [""] else steps := by
  have hslash : "/".toList = ['/'] := rfl
  have hcons : ("/" ++ "/".intercalate steps).toList = [] ++ '/' :: ("/".intercalate steps).toList := by
    simp [String.toList_append, hslash]
  have key : (Path.mk ("/" ++ "/".intercalate steps)).pieces
      = "" :: (Path.mk ("/".intercalate steps)).pieces := by
    simp only [pieces, hcons, splitSlash_append_slash]
    rfl
  rw [key]
  split
  · rename_i e
    subst e
    rfl
  · rename_i hne
    rw [pieces_intercalate hne h]

/-- **Reading the spelling of a canonical route gives the route back.** -/
theorem route_path {r : Route} (h : Canonical r.absolute r.steps.reverse) :
    r.path.route = r := by
  obtain ⟨absolute, steps⟩ := r
  have hall : ∀ x ∈ steps, x ≠ "" ∧ x ≠ "." ∧ '/' ∉ x.toList := fun x hx =>
    h.forall x (by simpa using hx)
  have hslash : ∀ x ∈ steps, '/' ∉ x.toList := fun x hx => (hall x hx).2.2
  have hfold : steps.foldl (extendRoute absolute) [] = steps.reverse := by
    have h' : Canonical absolute (steps.reverse ++ []) := by simpa using h
    simpa using foldl_extendRoute h'
  cases absolute with
  | true =>
    have habs : (Path.mk ("/" ++ "/".intercalate steps)).isAbsolute = true := by
      simp [isAbsolute, String.toList_append]
    simp only [Route.path, if_true, route, habs, pieces_slash_intercalate hslash]
    simp only [List.foldl_cons, extendRoute, beq_self_eq_true, Bool.true_or, if_true]
    split
    · rename_i e
      subst e
      simp [extendRoute]
    · simp [hfold]
  | false =>
    by_cases hne : steps = []
    · subst hne
      decide +kernel
    · have hpieces := pieces_intercalate hne hslash
      have habs : (Path.mk ("/".intercalate steps)).isAbsolute = false := by
        obtain ⟨x, xs, rfl⟩ := List.exists_cons_of_ne_nil hne
        have hx := hall x (by simp)
        obtain ⟨c, cs, hc⟩ := List.exists_cons_of_ne_nil
          (show x.toList ≠ [] by simpa using hx.1)
        have : c ≠ '/' := fun e => hx.2.2 (by simp [hc, e])
        have hhead : ("/".intercalate (x :: xs)).toList.head? = some c := by
          rw [String.toList_intercalate]
          cases xs with
          | nil => simp [List.intercalate, hc]
          | cons y ys => simp [List.intercalate, hc]
        unfold isAbsolute
        rw [hhead]
        simp [this]
      simp [Route.path, hne, route, habs, hpieces, hfold]

theorem route_clean (p : Path) : p.clean.route = p.route := route_path p.canonical_route

/-- **Cleaning is idempotent.** -/
@[simp] theorem clean_clean (p : Path) : p.clean.clean = p.clean := by
  rw [clean, route_clean, ← clean]

@[simp] theorem depth_clean (p : Path) : p.clean.depth = p.depth := by
  rw [depth, route_clean, ← depth]

/-! ## Joining -/

theorem pieces_append_slash (a b : String) :
    (Path.mk (a ++ "/" ++ b)).pieces = (Path.mk a).pieces ++ (Path.mk b).pieces := by
  have hslash : "/".toList = ['/'] := rfl
  have htext : (a ++ "/" ++ b).toList = a.toList ++ '/' :: b.toList := by
    simp [String.toList_append, hslash]
  simp only [pieces, htext, splitSlash_append_slash, List.map_append]

theorem pieces_empty : (Path.mk "").pieces = [""] := rfl

/-- **The route of a joined path** goes on from where the route of the first one ends. -/
theorem route_join {p q : Path} (h : q.isAbsolute = false) : (p.join q).route
    = ⟨p.isAbsolute, (q.pieces.foldl (extendRoute p.isAbsolute) p.route.steps.reverse).reverse⟩ := by
  have hskip (steps : List String) : extendRoute p.isAbsolute steps "" = steps := by
    simp [extendRoute]
  have hjoined {front : String} (hp : p.text = front ∨ p.text = front ++ "/")
      (habsolute : (Path.mk (front ++ "/" ++ q.text)).isAbsolute = p.isAbsolute) :
      (Path.mk (front ++ "/" ++ q.text)).route = ⟨p.isAbsolute,
        (q.pieces.foldl (extendRoute p.isAbsolute) p.route.steps.reverse).reverse⟩ := by
    have hsteps : p.route.steps.reverse
        = (Path.mk front).pieces.foldl (extendRoute p.isAbsolute) [] := by
      rw [route, List.reverse_reverse]
      rcases hp with hp | hp
      · rw [show p.pieces = (Path.mk front).pieces from congrArg (fun text => (Path.mk text).pieces) hp]
      · have hpieces : p.pieces = (Path.mk front).pieces ++ [""] := by
          rw [← pieces_empty, ← pieces_append_slash, String.append_empty, ← hp]
        rw [hpieces, List.foldl_append, List.foldl_cons, List.foldl_nil, hskip]
    rw [route, habsolute, pieces_append_slash, List.foldl_append, hsteps]
  rw [join, if_neg (by simp [h])]
  by_cases hempty : p.text = ""
  · have habsolute : p.isAbsolute = false := by simp [isAbsolute, hempty]
    have hp : p.pieces = [""] := congrArg (fun text => (Path.mk text).pieces) hempty
    rw [if_pos (by simp [hempty]), hempty, String.empty_append]
    rw [habsolute] at hskip
    simp [route, habsolute, hp, h, hskip]
  · obtain ⟨c, cs, hc⟩ := List.exists_cons_of_ne_nil (show p.text.toList ≠ [] by simpa using hempty)
    by_cases hend : p.text.toList.getLast? = some '/'
    · obtain ⟨front, hfront⟩ := List.getLast?_eq_some_iff.mp hend
      have htext : p.text = String.ofList front ++ "/" := by
        rw [← String.toList_inj, String.toList_append, String.toList_ofList, hfront]
        rfl
      have habsolute : (Path.mk (p.text ++ q.text)).isAbsolute = p.isAbsolute := by
        simp [isAbsolute, String.toList_append, hc]
      rw [if_pos (by simp [hend])]
      rw [htext] at habsolute ⊢
      exact hjoined (.inr htext) habsolute
    · rw [if_neg (by simp [hempty, hend])]
      refine hjoined (.inl rfl) ?_
      simp [isAbsolute, String.toList_append, hc]

/-! ## Children -/

theorem slash_notMem_of_isPlainName {name : String} (h : isPlainName name = true) :
    '/' ∉ name.toList := by
  simp only [isPlainName, Bool.and_eq_true, Bool.not_eq_true', List.contains_eq_mem,
    decide_eq_false_iff_not] at h
  exact h.2

theorem isRelative_of_isPlainName {name : String} (h : isPlainName name = true) :
    (Path.mk name).isAbsolute = false := by
  cases hc : name.toList with
  | nil => simp [isAbsolute, hc]
  | cons c cs =>
    have hcs : c ≠ '/' := fun e => slash_notMem_of_isPlainName h (by simp [hc, e])
    simp [isAbsolute, hc, hcs]

theorem steps_child {p : Path} {name : String} (h : isPlainName name = true) :
    (p.child name).route = ⟨p.isAbsolute, p.route.steps ++ [name]⟩ := by
  have hrel := isRelative_of_isPlainName h
  simp only [isPlainName, Bool.and_eq_true, bne_iff_ne, ne_eq, Bool.not_eq_true',
    List.contains_eq_mem, decide_eq_false_iff_not] at h
  obtain ⟨⟨⟨h0, h1⟩, h2⟩, hs⟩ := h
  have hname : (Path.mk name).pieces = [name] := by simp [pieces, splitSlash_of_not_mem hs]
  rw [child, route_join hrel, hname]
  simp [extendRoute, h0, h1, h2]

theorem isAbsolute_child {p : Path} {name : String} (h : isPlainName name = true) :
    (p.child name).isAbsolute = p.isAbsolute := congrArg Route.absolute (steps_child h)

/-- An entry of a directory is one step deeper than the directory. -/
theorem depth_child {p : Path} {name : String} (h : isPlainName name = true) :
    (p.child name).depth = p.depth + 1 := by
  simp [depth, steps_child h]

/-- Steps that are joined by slashes do not end in one. -/
theorem getLast?_intercalate_ne {steps : List String} (hne : steps ≠ [])
    (h : ∀ x ∈ steps, x ≠ "" ∧ x ≠ "." ∧ '/' ∉ x.toList) :
    ∃ c, ("/".intercalate steps).toList.getLast? = some c ∧ c ≠ '/' := by
  obtain ⟨front, last, rfl⟩ : ∃ front last, steps = front ++ [last] :=
    ⟨_, _, (List.dropLast_concat_getLast hne).symm⟩
  obtain ⟨hlast, _, hslash⟩ := h last (by simp)
  obtain ⟨cs, c, hc⟩ : ∃ cs c, last.toList = cs ++ [c] :=
    ⟨_, _, (List.dropLast_concat_getLast (by simpa using hlast)).symm⟩
  refine ⟨c, ?_, fun e => hslash (by simp [hc, e])⟩
  cases front with
  | nil => rw [List.nil_append, String.intercalate_singleton, hc, List.getLast?_concat]
  | cons x xs =>
    rw [String.intercalate_append_of_ne_nil (by simp) (by simp), String.intercalate_singleton,
      String.toList_append, hc, ← List.append_assoc, List.getLast?_concat]

/-- **An entry of a clean directory is clean**, if the directory is seen from the root. -/
theorem clean_child {p : Path} {name : String} (hp : p.clean = p) (habs : p.isAbsolute = true)
    (h : isPlainName name = true) : (p.child name).clean = p.child name := by
  have hrel := isRelative_of_isPlainName h
  have htext : p = ⟨"/" ++ "/".intercalate p.route.steps⟩ := by
    have hroute : p.route.path = p := hp
    rw [Route.path, if_pos (show p.route.absolute = true from habs)] at hroute
    exact hroute.symm
  have hsteps : ∀ x ∈ p.route.steps, x ≠ "" ∧ x ≠ "." ∧ '/' ∉ x.toList := fun x hx =>
    p.canonical_route.forall x (by simpa using hx)
  rw [clean, steps_child h, Route.path, if_pos habs, child, join, if_neg (by simp [hrel])]
  generalize p.route.steps = steps at *
  subst htext
  cases steps with
  | nil => simp
  | cons x xs =>
    obtain ⟨c, hc, hslash⟩ := getLast?_intercalate_ne (List.cons_ne_nil x xs) hsteps
    rw [if_neg]
    · rw [String.intercalate_append_of_ne_nil (by simp) (by simp), String.intercalate_singleton]
      simp [String.append_assoc]
    · have hlast : ("/" ++ "/".intercalate (x :: xs)).toList.getLast? = some c := by
        rw [String.toList_append, List.getLast?_append, hc, Option.some_or]
      rw [hlast]
      simp [hslash]

/-! ## The length of a path bounds its depth -/

theorem length_splitSlash_le (l : List Char) : (splitSlash l).length ≤ l.length + 1 := by
  induction l with
  | nil => simp [splitSlash]
  | cons c r ih =>
    unfold splitSlash
    split
    · simpa using ih
    · split
      · simp
      · rename_i h
        rw [h] at ih
        simp only [List.length_cons] at ih ⊢
        omega

theorem length_extendRoute_le (absolute : Bool) (steps : List String) (piece : String) :
    (extendRoute absolute steps piece).length ≤ steps.length + 1 := by
  unfold extendRoute
  split
  · omega
  · split
    · split
      · split <;> simp
      · split
        · simp
        · simp
          omega
    · simp

theorem length_foldl_extendRoute_le (absolute : Bool) (ps steps : List String) :
    (ps.foldl (extendRoute absolute) steps).length ≤ steps.length + ps.length := by
  induction ps generalizing steps with
  | nil => simp
  | cons p ps ih =>
    have := ih (extendRoute absolute steps p)
    have := length_extendRoute_le absolute steps p
    simp only [List.foldl_cons, List.length_cons]
    omega

theorem depth_le_length (p : Path) : p.depth ≤ p.text.length + 1 := by
  have hfold := length_foldl_extendRoute_le p.isAbsolute p.pieces []
  have hsplit := length_splitSlash_le p.text.toList
  simp only [List.length_nil, String.length_toList, pieces, List.length_map] at hfold hsplit
  simp only [depth, route, List.length_reverse, pieces]
  omega

end ImportAtlas.Path
