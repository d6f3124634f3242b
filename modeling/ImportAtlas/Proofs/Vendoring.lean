import ImportAtlas.Proofs.Components
import ImportAtlas.Proofs.Survey

/-!
# Proofs/Vendoring — where a path leads into a vendor directory, and where a resolution may not

`isVendored` counts the components that two paths share.  What it decides is said without counting
(`isVendored_eq_false_iff`): every vendor directory on the one way stands at the same place on the
other.  In this form the property composes (`VendorsWithin.trans`), passes to what lies above a path,
and holds of what a resolution answers (`FileSystem.vendorsWithin_of_resolve`) as well as of what a
walk lists (`FileSystem.IsWalkedModule.vendorsWithin`).
-/

namespace ImportAtlas

variable {fs : FileSystem} {config : Config} {vendorDirs : List String} {importer : Path}
  {specifier : String} {t : ModuleId}

/-! ## Vendor directories on the way -/

/-- **Ways without vendor directories of their own**: each vendor directory on the way stands on the
base as well, at the same place. -/
def VendorsWithin (vendorDirs : List String) (base way : List Path.Component) : Prop :=
  ∀ front name, front ++ [.name name] <+: way → name ∈ vendorDirs → front ++ [.name name] <+: base

namespace VendorsWithin

variable {a b c : List Path.Component}

theorem refl (a : List Path.Component) : VendorsWithin vendorDirs a a := fun _ _ hfront _ => hfront

/-- A way that leads into no vendor directory from a way that leads into none, leads into none. -/
theorem trans (hab : VendorsWithin vendorDirs a b) (hbc : VendorsWithin vendorDirs b c) :
    VendorsWithin vendorDirs a c :=
  fun front name hfront hname => hab front name (hbc front name hfront hname) hname

theorem of_start (h : VendorsWithin vendorDirs a b) (hc : c <+: b) :
    VendorsWithin vendorDirs a c :=
  fun front name hfront hname => h front name (hfront.trans hc) hname

/-- Fewer vendor directories are easier to avoid. -/
theorem of_subset {vendorDirs' : List String} (h : VendorsWithin vendorDirs a b)
    (hsub : ∀ name ∈ vendorDirs', name ∈ vendorDirs) : VendorsWithin vendorDirs' a b :=
  fun front name hfront hname => h front name hfront (hsub name hname)

end VendorsWithin

theorem prefix_append_cases {α : Type} {a b front : List α} {x : α} (h : front ++ [x] <+: a ++ b) :
    front ++ [x] <+: a ∨ x ∈ b := by
  rcases List.prefix_or_prefix_of_prefix h (List.prefix_append a b) with hshort | ⟨c, hc⟩
  · exact Or.inl hshort
  · rcases List.eq_nil_or_concat' c with rfl | ⟨rest, y, rfl⟩
    · rw [List.append_nil] at hc
      exact Or.inl (hc ▸ List.prefix_refl a)
    · refine Or.inr ?_
      rw [← hc, List.prefix_append_right_inj] at h
      rw [← List.append_assoc] at hc
      obtain ⟨_, hy⟩ := List.append_inj' hc rfl
      obtain rfl : y = x := by simpa using hy
      exact h.subset (by simp)

/-- **Behind a base there may be any names but those of vendor directories.** -/
theorem vendorsWithin_append_iff {base : List Path.Component} {names : List String} :
    VendorsWithin vendorDirs base (base ++ names.map .name) ↔
      ∀ name ∈ names, name ∉ vendorDirs := by
  constructor
  · intro h name hname hvendor
    obtain ⟨front, back, rfl⟩ := List.append_of_mem hname
    have hfront : (base ++ front.map .name) ++ [.name name]
        <+: base ++ (front ++ name :: back).map .name := ⟨back.map .name, by simp⟩
    have hlength := (h _ name hfront hvendor).length_le
    simp only [List.length_append, List.length_map, List.length_singleton] at hlength
    omega
  · intro h front name hfront hname
    rcases prefix_append_cases hfront with hbase | hmem
    · exact hbase
    · obtain ⟨other, hother, heq⟩ := List.mem_map.mp hmem
      obtain rfl : other = name := by simpa using heq
      exact absurd hname (h other hother)

/-! ## What is shared from the start -/

theorem mem_iff_prefix {α : Type} {x : α} {l : List α} : x ∈ l ↔ ∃ front, front ++ [x] <+: l := by
  constructor
  · intro h
    obtain ⟨front, back, rfl⟩ := List.append_of_mem h
    exact ⟨front, back, by simp⟩
  · rintro ⟨front, h⟩
    exact h.subset (by simp)

/-- Behind what is shared with another list stand the ends of those starts that are not starts of
the other one. -/
theorem mem_drop_sharedLength {a b : List Path.Component} {x : Path.Component} :
    x ∈ b.drop (sharedLength a b) ↔ ∃ front, front ++ [x] <+: b ∧ ¬ front ++ [x] <+: a := by
  induction a generalizing b with
  | nil => simp [sharedLength, mem_iff_prefix]
  | cons y ys ih =>
    cases b with
    | nil => simp
    | cons z zs =>
      by_cases hyz : y = z
      · subst hyz
        have hlength : sharedLength (y :: ys) (y :: zs) = sharedLength ys zs + 1 := by
          simp [sharedLength]
        rw [hlength, List.drop_succ_cons, ih]
        constructor
        · rintro ⟨front, hb, ha⟩
          exact ⟨y :: front, by simpa using hb, by simpa using ha⟩
        · rintro ⟨front, hb, ha⟩
          cases front with
          | nil =>
            obtain rfl : x = y := by simpa using hb
            exact absurd (by simp) ha
          | cons w front =>
            obtain ⟨rfl, hzs⟩ := List.cons_prefix_cons.mp hb
            exact ⟨front, hzs, fun hys => ha (List.cons_prefix_cons.mpr ⟨rfl, hys⟩)⟩
      · have hlength : sharedLength (y :: ys) (z :: zs) = 0 := by
          simp [sharedLength, hyz]
        rw [hlength, List.drop_zero, mem_iff_prefix]
        refine exists_congr fun front => ⟨fun hb => ⟨hb, fun ha => hyz ?_⟩, And.left⟩
        have hne : front ++ [x] ≠ [] := by simp
        obtain ⟨w, rest, hw⟩ := List.exists_cons_of_ne_nil hne
        rw [hw] at ha hb
        exact (List.cons_prefix_cons.mp ha).1.symm.trans (List.cons_prefix_cons.mp hb).1

/-- **A path is not vendored exactly if all vendor directories on it stand at the same place on the
way to the importing file.** -/
theorem isVendored_eq_false_iff {candidate : Path} : isVendored importer candidate vendorDirs = false ↔
    VendorsWithin vendorDirs importer.parent.components candidate.components := by
  rw [isVendored, List.any_eq_false]
  constructor
  · intro h front name hfront hname
    refine Decidable.byContradiction fun hnot => ?_
    exact h (.name name) (mem_drop_sharedLength.mpr ⟨front, hfront, hnot⟩) (by simpa using hname)
  · intro h x hx
    obtain ⟨front, hfront, hnot⟩ := mem_drop_sharedLength.mp hx
    split
    · rename_i name
      exact fun hname => hnot (h front name hfront (by simpa using hname))
    · exact Bool.false_ne_true

/-! ## Resolutions -/

theorem clean_candidatePath : (candidatePath importer specifier).clean
    = candidatePath importer specifier := Path.clean_clean _

namespace FileSystem

/-- What the vendor directories do to a resolution: they make it external, or leave it as it is. -/
theorem resolve_eq (fs : FileSystem) (vendorDirs : List String) (importer : Path)
    (specifier : String) : fs.resolve vendorDirs importer specifier =
      if isRelative specifier = true ∧
          isVendored importer (candidatePath importer specifier) vendorDirs = false
      then fs.resolve [] importer specifier else .ok (.external specifier) := by
  have hnone : isVendored importer (candidatePath importer specifier) [] = false :=
    isVendored_eq_false_iff.mpr fun _ _ _ hname => nomatch hname
  rw [resolve, resolve, hnone]
  cases isRelative specifier <;>
    cases isVendored importer (candidatePath importer specifier) vendorDirs <;> simp

/-- A specifier that leads to a file is relative, and the path that it names is not vendored. -/
theorem not_isVendored_of_resolve (h : fs.resolve vendorDirs importer specifier = .ok (.file t)) :
    isRelative specifier = true ∧
      isVendored importer (candidatePath importer specifier) vendorDirs = false := by
  rw [resolve_eq] at h
  split at h
  · assumption
  · nomatch h

theorem isPlainName_probes : ∀ extension ∈ probeExtensions,
    Path.isPlainName extension = true ∧ Path.isPlainName ("index." ++ extension) = true := by
  decide

/-- What is probed for a path is an index file in it, the path with an extension, or the path. -/
theorem mem_probes_cases {p q : Path} (h : q ∈ fs.probes p) :
    (∃ extension ∈ probeExtensions, q = p.child ("index." ++ extension)) ∨
      (∃ extension ∈ probeExtensions, q = p.appendExtension extension) ∨ q = p := by
  rw [probes, List.mem_append, List.mem_append] at h
  rcases h with (hindex | hextended) | hitself
  · split at hindex
    · obtain ⟨extension, hextension, rfl⟩ := List.mem_map.mp hindex
      exact Or.inl ⟨extension, hextension, rfl⟩
    · nomatch hindex
  · obtain ⟨extension, hextension, rfl⟩ := List.mem_map.mp hextended
    exact Or.inr (Or.inl ⟨extension, hextension, rfl⟩)
  · split at hitself
    · exact Or.inr (Or.inr (List.mem_singleton.mp hitself))
    · nomatch hitself

/-- **A file that a specifier leads to** is what the specifier names, if this is a module file, and
else a file among its probes. -/
theorem file_of_resolve (h : fs.resolve vendorDirs importer specifier = .ok (.file t)) :
    (candidatePath importer specifier).isModuleFile = true ∧
        t = .ofPath (candidatePath importer specifier) ∨
      ∃ found ∈ fs.probes (candidatePath importer specifier),
        fs.isFile found = true ∧ t = .ofPath found := by
  obtain ⟨hrelative, hvendored⟩ := not_isVendored_of_resolve h
  rw [resolve] at h
  simp only [hrelative, hvendored, Bool.not_true, Bool.or_self, Bool.false_eq_true, if_false] at h
  split at h
  · rename_i hmodule
    exact Or.inl ⟨hmodule, (Resolution.file.inj (Except.ok.inj h)).symm⟩
  · split at h
    · rename_i found hfound
      exact Or.inr ⟨found, List.mem_of_find?_eq_some hfound, List.find?_some hfound,
        (Resolution.file.inj (Except.ok.inj h)).symm⟩
    · nomatch h

/-- **A file that a specifier leads to lies in or beside what the specifier names.** -/
theorem directories_of_resolve (h : fs.resolve vendorDirs importer specifier = .ok (.file t)) :
    t.path.directories = (candidatePath importer specifier).components ∨
      t.path.directories = (candidatePath importer specifier).directories := by
  have hclean : (candidatePath importer specifier).clean = candidatePath importer specifier :=
    clean_candidatePath
  have hroute := (candidatePath importer specifier).components_route hclean
  have hresolved := file_of_resolve h
  generalize candidatePath importer specifier = candidate at hresolved hclean hroute ⊢
  have hplace {p : Path} (hp : p.clean.directories = candidate.route.components) :
      (ModuleId.ofPath p).path.directories = candidate.components ∨
        (ModuleId.ofPath p).path.directories = candidate.directories :=
    hroute.imp hp.trans hp.trans
  rcases hresolved with ⟨_, rfl⟩ | ⟨found, hfound, _, rfl⟩
  · exact Or.inr (by rw [ModuleId.ofPath, hclean])
  · rcases mem_probes_cases hfound with ⟨extension, hextension, rfl⟩ | ⟨extension, hextension, rfl⟩ | rfl
    · exact hplace (Path.directories_child (isPlainName_probes extension hextension).2)
    · have hplain := (isPlainName_probes extension hextension).1
      exact (Path.directories_appendExtension hclean hplain).elim hplace Or.inr
    · exact Or.inr (by rw [ModuleId.ofPath, hclean])

/-- **A resolution leads into no vendor directory** that the importing file is not in. -/
theorem vendorsWithin_parent_of_resolve
    (h : fs.resolve vendorDirs importer specifier = .ok (.file t)) :
    VendorsWithin vendorDirs importer.parent.components t.path.directories := by
  refine (isVendored_eq_false_iff.mp (not_isVendored_of_resolve h).2).of_start ?_
  rcases directories_of_resolve h with heq | heq
  · simp only [heq, List.prefix_refl]
  · rw [heq]
    exact List.dropLast_prefix _

theorem vendorsWithin_of_resolve (himporter : importer.clean = importer)
    (h : fs.resolve vendorDirs importer specifier = .ok (.file t)) :
    VendorsWithin vendorDirs importer.directories t.path.directories := by
  rw [← Path.components_parent himporter]
  exact vendorsWithin_parent_of_resolve h

/-! ## Walks -/

variable {config' : Config} {dir q top : Path} {name : String} {names : List String} {id : ModuleId}

/-- **The components of a path tell the names on the way to it.** -/
theorem DirAt.components_eq (h : fs.DirAt dir names q) :
    q.route.components = dir.route.components ++ names.map .name := by
  induction h with
  | here => simp
  | inside hdir _ ih =>
    rw [ih, Path.components_route_child hdir.isPlainName, List.append_assoc]
    rfl

theorem DirAt.directories_eq (h : fs.DirAt top names dir) (hmodule : fs.HasModule dir name) :
    (ModuleId.ofPath (dir.child name)).path.directories
      = top.route.components ++ names.map .name := by
  rw [← h.components_eq]
  exact Path.directories_child hmodule.isPlainName

theorem IsWalkedModule.clean_eq (h : fs.IsWalkedModule config top id) :
    id.path.clean = id.path := by
  obtain ⟨_, _, _, _, rfl⟩ := h
  exact Path.clean_clean _

/-- Below the directory where a walk starts a module of the walk lies in no vendor directory. -/
theorem IsWalkedModule.directories_eq (h : fs.IsWalkedModule config top id) :
    ∃ names : List String, (∀ name ∈ names, name ∉ config.vendorDirs) ∧
      id.path.directories = top.route.components ++ names.map .name := by
  obtain ⟨dir, name, ⟨names, hdir, hvendor⟩, hmodule, rfl⟩ := h
  exact ⟨names, fun name hname => by simpa [Config.isVendorDir] using hvendor name hname,
    hdir.directories_eq hmodule⟩

/-- **A walk leads into no vendor directory** that it does not start in. -/
theorem IsWalkedModule.vendorsWithin (h : fs.IsWalkedModule config top id) :
    VendorsWithin config.vendorDirs top.route.components id.path.directories := by
  obtain ⟨names, hvendor, heq⟩ := h.directories_eq
  rw [heq]
  exact vendorsWithin_append_iff.mpr hvendor

/-- **A module of a walk is one with other vendor directories**, if it lies in none of these either. -/
theorem IsWalkedModule.of_vendorsWithin (h : fs.IsWalkedModule config top id)
    (hway : VendorsWithin config'.vendorDirs top.route.components id.path.directories) :
    fs.IsWalkedModule config' top id := by
  obtain ⟨dir, name, ⟨names, hdir, _⟩, hmodule, rfl⟩ := h
  rw [hdir.directories_eq hmodule, vendorsWithin_append_iff] at hway
  refine ⟨dir, name, ⟨names, hdir, fun name hname => ?_⟩, hmodule, rfl⟩
  simpa [Config.isVendorDir] using hway name hname

end FileSystem

end ImportAtlas
