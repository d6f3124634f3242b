import ImportAtlas.Proofs.Vendoring

/-!
# Proofs/Below — paths below a directory, and specifiers that stay there

A path below a directory is spelled by plain names behind that of the directory (`Path.below`).
Children, parents, extensions and vendor directories are read off these names, whatever stands before
them.  A specifier climbs some directories and names others (`Path.exists_route_join`).  As long as it
stays inside of the directory, the names that it leads to do not depend on the directory either
(`exists_landing`).
-/

namespace ImportAtlas

namespace Path

variable {top top' p : Path} {a b names steps : List String} {name piece : String}

/-! ## Plain names -/

/-- Names that entries of directories can have. -/
def ArePlain (names : List String) : Prop := ∀ name ∈ names, isPlainName name = true

instance : Decidable (ArePlain names) :=
  inferInstanceAs (Decidable (∀ name ∈ names, isPlainName name = true))

theorem ArePlain.append (ha : ArePlain a) (hb : ArePlain b) : ArePlain (a ++ b) :=
  List.forall_mem_append.mpr ⟨ha, hb⟩

theorem ArePlain.subset (hb : ArePlain b) (h : a ⊆ b) : ArePlain a := fun name hname =>
  hb name (h hname)

theorem arePlain_concat : ArePlain (a ++ [name]) ↔ ArePlain a ∧ isPlainName name = true :=
  List.forall_mem_append.trans (and_congr_right fun _ => List.forall_mem_singleton)

theorem Canonical.append_plain {absolute : Bool} (ha : ArePlain a) (h : Canonical absolute steps) :
    Canonical absolute (a ++ steps) := by
  induction a with
  | nil => exact h
  | cons name a ih =>
    obtain ⟨hname, ha⟩ := List.forall_mem_cons.mp ha
    exact (ih ha).cons_plain hname

/-- The steps of a route are plain, but for those that lead up. -/
theorem isPlainName_of_mem_steps (h : name ∈ p.route.steps) (hup : name ≠ "..") :
    isPlainName name = true := by
  obtain ⟨hempty, hdot, hslash⟩ := p.canonical_route.forall name (List.mem_reverse.mpr h)
  simp [isPlainName, hempty, hdot, hslash, hup]

theorem notMem_of_canonical (h : Canonical true steps) : ".." ∉ steps := by
  induction steps with
  | nil => exact List.not_mem_nil
  | cons step steps ih =>
    refine List.not_mem_cons_of_ne_of_not_mem (fun hup => ?_) (ih h.2.2)
    exact absurd (h.2.1 hup.symm).1 (by decide)

/-- No step of a route from the root leads up. -/
theorem notMem_steps (h : p.isAbsolute = true) : ".." ∉ p.route.steps := by
  have hcanonical : Canonical true p.route.steps.reverse := h ▸ p.canonical_route
  exact fun hup => notMem_of_canonical hcanonical (List.mem_reverse.mpr hup)

/-! ## Paths below a directory -/

/-- The path that names lead to from a directory. -/
def below (top : Path) (names : List String) : Path :=
  Route.path ⟨top.isAbsolute, top.route.steps ++ names⟩

/-- A path at or below a directory. -/
def IsBelow (top p : Path) : Prop := ∃ names, ArePlain names ∧ p = top.below names

theorem canonical_below (h : ArePlain names) :
    Canonical top.isAbsolute (top.route.steps ++ names).reverse := by
  rw [List.reverse_append]
  exact top.canonical_route.append_plain fun name hname => h name (List.mem_reverse.mp hname)

theorem route_below (h : ArePlain names) :
    (top.below names).route = ⟨top.isAbsolute, top.route.steps ++ names⟩ :=
  route_path (canonical_below h)

theorem clean_below (h : ArePlain names) : (top.below names).clean = top.below names :=
  clean_path (canonical_below h)

theorem isAbsolute_below (h : ArePlain names) : (top.below names).isAbsolute = top.isAbsolute :=
  congrArg Route.absolute (route_below h)

theorem steps_below (h : ArePlain names) :
    (top.below names).route.steps = top.route.steps ++ names :=
  congrArg Route.steps (route_below h)

theorem below_nil (h : top.clean = top) : top.below [] = top := by
  rw [below, List.append_nil]
  exact h

/-- A path whose route goes on from that of a directory lies below it. -/
theorem eq_below_of_route (hp : p.clean = p) (h : p.route = ⟨top.isAbsolute, top.route.steps ++ a⟩) :
    p = top.below a := by
  rw [below, ← h]
  exact hp.symm

/-- **Different names lead to different paths.** -/
theorem below_inj (ha : ArePlain a) (hb : ArePlain b) (h : top.below a = top.below b) : a = b := by
  have hsteps := congrArg (fun p => p.route.steps) h
  simp only [steps_below ha, steps_below hb] at hsteps
  exact List.append_cancel_left hsteps

theorem child_below (htop : top.isAbsolute = true) (ha : ArePlain a)
    (hname : isPlainName name = true) : (top.below a).child name = top.below (a ++ [name]) := by
  refine eq_below_of_route ?_ ?_
  · exact clean_child (clean_below ha) ((isAbsolute_below ha).trans htop) hname
  · rw [steps_child hname, isAbsolute_below ha, steps_below ha, List.append_assoc]

theorem parent_below (htop : top.isAbsolute = true) (h : ArePlain (a ++ [name])) :
    (top.below (a ++ [name])).parent = top.below a := by
  have hroute : (top.below (a ++ [name])).route
      = ⟨top.isAbsolute, (top.route.steps ++ a) ++ [name]⟩ := by
    rw [route_below h, List.append_assoc]
  rw [parent_of_route (clean_below h) hroute, if_neg (by simp [htop]), below]

theorem appendExtension_below (extension : String) :
    (top.below (a ++ [name])).appendExtension extension
      = top.below (a ++ [name ++ "." ++ extension]) := by
  rw [below, below, ← List.append_assoc, ← List.append_assoc]
  exact appendExtension_path ..

/-! ## What is read off the names -/

theorem components_below (htop : top.isAbsolute = true) (h : ArePlain names) :
    (top.below names).components = top.route.components ++ names.map .name := by
  have hnames : names.map Component.ofStep = names.map .name :=
    List.map_congr_left fun name hname => ofStep_of_plain (h name hname)
  have hroute : top.route = ⟨top.isAbsolute, top.route.steps⟩ := rfl
  rw [components_of_clean (clean_below h), route_below h, if_neg (by simp [htop]), hroute,
    Route.components, Route.components, List.map_append, hnames, List.append_assoc]

theorem fileName?_below (htop : top.isAbsolute = true) (h : ArePlain (a ++ [name])) :
    (top.below (a ++ [name])).fileName? = some name := by
  have hcomponents : (top.below (a ++ [name])).components
      = (top.route.components ++ a.map .name) ++ [.name name] := by
    rw [components_below htop h, List.map_append, List.append_assoc]
    rfl
  rw [fileName?_eq_some_iff, directories, hcomponents, List.dropLast_concat]

theorem extension?_below (htop : top.isAbsolute = true) (h : ArePlain (a ++ [name])) :
    (top.below (a ++ [name])).extension? = extensionOfName? name := by
  rw [extension?, fileName?_below htop h]
  rfl

end Path

/-! ## Where specifiers lead -/

namespace Path

/-- How many directories a path climbs before it names any. -/
def climbs (p : Path) : Nat := p.route.steps.count ".."

/-- **One more piece** of a path that climbs and then names entries does the same to these names,
whether it is seen by itself or from a directory below the root. -/
theorem exists_extendRoute (hnames : ".." ∉ names) (n : Nat) (piece : String) :
    ∃ more k, ".." ∉ more ∧
      extendRoute false (names ++ .replicate n "..") piece = more ++ .replicate k ".." ∧
      ∀ dir : List String, ".." ∉ dir →
        extendRoute true (names ++ dir.drop n) piece = more ++ dir.drop k := by
  by_cases hskip : piece = "" ∨ piece = "."
  · have hstay (absolute : Bool) (steps : List String) :
        extendRoute absolute steps piece = steps := by simp [extendRoute, hskip]
    exact ⟨names, n, hnames, hstay .., fun _ _ => hstay ..⟩
  · by_cases hup : piece = ".."
    · subst hup
      cases names with
      | nil =>
        -- Nothing is left to leave: the path climbs one directory more.
        refine ⟨[], n + 1, by simp, ?_, fun dir hdir => ?_⟩
        · cases n <;> simp [extendRoute, List.replicate_succ]
        · rw [List.nil_append, List.nil_append, ← List.drop_drop]
          cases hrest : dir.drop n with
          | nil => rfl
          | cons last above =>
            have hlast : last ≠ ".." := fun heq =>
              hdir (heq ▸ List.mem_of_mem_drop (hrest ▸ List.mem_cons_self))
            simp [extendRoute, hlast]
      | cons last names =>
        have hlast : ".." ≠ last := List.ne_of_not_mem_cons hnames
        have hleave (absolute : Bool) (steps : List String) :
            extendRoute absolute (last :: steps) ".." = steps := by
          simp [extendRoute, hlast.symm]
        exact ⟨names, n, List.not_mem_of_not_mem_cons hnames, hleave .., fun _ _ => hleave ..⟩
    · have hstep (absolute : Bool) (steps : List String) :
          extendRoute absolute steps piece = piece :: steps := by simp [extendRoute, hskip, hup]
      refine ⟨piece :: names, n, ?_, hstep .., fun _ _ => hstep ..⟩
      exact List.not_mem_cons_of_ne_of_not_mem (Ne.symm hup) hnames

theorem exists_foldl_extendRoute (pieces : List String) {names : List String}
    (hnames : ".." ∉ names) (n : Nat) : ∃ more k, ".." ∉ more ∧
      pieces.foldl (extendRoute false) (names ++ .replicate n "..") = more ++ .replicate k ".." ∧
      ∀ dir : List String, ".." ∉ dir →
        pieces.foldl (extendRoute true) (names ++ dir.drop n) = more ++ dir.drop k := by
  induction pieces generalizing names n with
  | nil => exact ⟨names, n, hnames, rfl, fun _ _ => rfl⟩
  | cons piece pieces ih =>
    obtain ⟨next, m, hnext, hrelative, habsolute⟩ := exists_extendRoute hnames n piece
    obtain ⟨more, k, hmore, hrelative', habsolute'⟩ := ih hnext m
    refine ⟨more, k, hmore, ?_, fun dir hdir => ?_⟩
    · rw [List.foldl_cons, hrelative, hrelative']
    · rw [List.foldl_cons, habsolute dir hdir, habsolute' dir hdir]

/-- **A relative path climbs, and then it names entries**: the names are the same from wherever it is
followed. -/
theorem exists_route_join {q : Path} (hq : q.isAbsolute = false) : ∃ names, ArePlain names ∧
    ∀ dir : Path, dir.isAbsolute = true → (dir.join q).route
      = ⟨true, dir.route.steps.take (dir.depth - q.climbs) ++ names⟩ := by
  obtain ⟨more, k, hmore, hrelative, habsolute⟩ :=
    exists_foldl_extendRoute q.pieces (List.not_mem_nil (a := "..")) 0
  have hsteps : q.route.steps = .replicate k ".." ++ more.reverse := by
    rw [route, hq, show q.pieces.foldl (extendRoute false) [] = _ from hrelative,
      List.reverse_append, List.reverse_replicate]
  have hclimbs : q.climbs = k := by
    have hcount : more.reverse.count ".." = 0 := by simpa [List.count_eq_zero] using hmore
    rw [climbs, hsteps, List.count_append, List.count_replicate_self, hcount, Nat.add_zero]
  refine ⟨more.reverse, fun name hname => ?_, fun dir hdir => ?_⟩
  · refine isPlainName_of_mem_steps (p := q) (hsteps ▸ List.mem_append_right _ hname) ?_
    rintro rfl
    exact hmore (List.mem_reverse.mp hname)
  · have hup : ".." ∉ dir.route.steps.reverse := by simpa using notMem_steps hdir
    have hfold : q.pieces.foldl (extendRoute true) dir.route.steps.reverse
        = more ++ dir.route.steps.reverse.drop k := habsolute _ hup
    rw [route_join hq, hdir, hfold, List.drop_reverse, List.reverse_append, List.reverse_reverse,
      hclimbs]
    rfl

end Path

/-- **A specifier that stays inside of a directory**: it is not absolute, it climbs no higher than the
root of the disk, and the path that it names lies at or below the directory. -/
structure StaysInside (top importer : Path) (specifier : String) : Prop where
  relative : (Path.mk specifier).isAbsolute = false
  climbs_le : (Path.mk specifier).climbs ≤ importer.parent.depth
  below : top.route.steps <+: (candidatePath importer specifier).route.steps

instance {top importer : Path} {specifier : String} : Decidable (StaysInside top importer specifier) :=
  decidable_of_iff ((Path.mk specifier).isAbsolute = false ∧
      (Path.mk specifier).climbs ≤ importer.parent.depth ∧
      top.route.steps <+: (candidatePath importer specifier).route.steps)
    ⟨fun ⟨hrelative, hclimbs, hbelow⟩ => ⟨hrelative, hclimbs, hbelow⟩,
      fun ⟨hrelative, hclimbs, hbelow⟩ => ⟨hrelative, hclimbs, hbelow⟩⟩

/-- What is left of a way that is followed upwards, and then down by some names: if it comes back to
where it started, the names that it leads to from there do not depend on where that is. -/
theorem take_append_of_prefix {top a names : List String} {k : Nat} (hk : k ≤ top.length + a.length)
    (h : top <+: (top ++ a).take (top.length + a.length - k) ++ names) :
    (top ++ a).take (top.length + a.length - k) ++ names
      = top ++ (a.take (a.length - k) ++ names.drop (k - a.length)) := by
  by_cases hinner : k ≤ a.length
  · rw [show top.length + a.length - k = top.length + (a.length - k) by omega,
      List.take_length_add_append, Nat.sub_eq_zero_of_le hinner, List.drop_zero, List.append_assoc]
  · have hle : top.length + a.length - k ≤ top.length := by omega
    rw [List.take_append_of_le_length hle] at h ⊢
    obtain ⟨rest, hrest⟩ := h
    have hwhole : top.take (top.length + a.length - k)
          ++ (top.drop (top.length + a.length - k) ++ rest)
        = top.take (top.length + a.length - k) ++ names := by
      rw [← List.append_assoc, List.take_append_drop]
      exact hrest
    have hnames := List.append_cancel_left hwhole
    have hdrop : names.drop (k - a.length) = rest := by
      rw [← hnames]
      refine List.drop_left' ?_
      rw [List.length_drop]
      omega
    rw [← hrest, hdrop, show a.length - k = 0 by omega, List.take_zero, List.nil_append]

namespace Path

variable {a names : List String} {name specifier : String}

/-- **A specifier leads to the same names behind every directory** inside of which it stays. -/
theorem exists_landing (h : ArePlain (a ++ [name])) (specifier : String) :
    ∃ names, ArePlain names ∧ ∀ top : Path, top.isAbsolute = true →
      StaysInside top (top.below (a ++ [name])) specifier →
      candidatePath (top.below (a ++ [name])) specifier = top.below names := by
  by_cases hrelative : (Path.mk specifier).isAbsolute = false
  · obtain ⟨names, hnames, hjoin⟩ := exists_route_join hrelative
    obtain ⟨ha, _⟩ := arePlain_concat.mp h
    refine ⟨a.take (a.length - (Path.mk specifier).climbs)
        ++ names.drop ((Path.mk specifier).climbs - a.length), ?_, fun top htop hinside => ?_⟩
    · exact (ha.subset (List.take_subset ..)).append (hnames.subset (List.drop_subset ..))
    · obtain ⟨_, hclimbs, hbelow⟩ := hinside
      refine eq_below_of_route clean_candidatePath ?_
      have hdir : (top.below a).isAbsolute = true := (isAbsolute_below ha).trans htop
      have hroute := hjoin _ hdir
      rw [depth, steps_below ha, List.length_append] at hroute
      rw [parent_below htop h, depth, steps_below ha, List.length_append] at hclimbs
      rw [candidatePath, parent_below htop h, route_clean, hroute] at hbelow ⊢
      rw [htop, take_append_of_prefix hclimbs hbelow]
  · exact ⟨[], fun _ hname => absurd hname List.not_mem_nil, fun _ _ hinside =>
      absurd hinside.relative hrelative⟩

end Path

/-! ## Vendor directories -/

theorem sharedLength_append (front a b : List Path.Component) :
    sharedLength (front ++ a) (front ++ b) = front.length + sharedLength a b := by
  induction front with
  | nil => simp
  | cons x front ih =>
    have hcons (a b : List Path.Component) :
        sharedLength (x :: a) (x :: b) = sharedLength a b + 1 := by simp [sharedLength]
    rw [List.cons_append, List.cons_append, hcons, ih, List.length_cons]
    omega

/-- **Vendor directories above a project do not count**: only the names behind its root are looked
at. -/
theorem isVendored_below {top : Path} {a names : List String} {name : String}
    (htop : top.isAbsolute = true) (h : Path.ArePlain (a ++ [name]))
    (hnames : Path.ArePlain names) (vendorDirs : List String) :
    isVendored (top.below (a ++ [name])) (top.below names) vendorDirs =
      (names.drop (sharedLength (a.map .name) (names.map .name))).any vendorDirs.contains := by
  obtain ⟨ha, _⟩ := Path.arePlain_concat.mp h
  rw [isVendored, Path.parent_below htop h, Path.components_below htop ha,
    Path.components_below htop hnames, sharedLength_append, List.drop_length_add_append,
    ← List.map_drop, List.any_map]
  rfl

end ImportAtlas
