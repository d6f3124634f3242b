import ImportAtlas.Proofs.Linking

/-!
# Proofs/Coincidence — two builds that agree wherever they come to are the same

A build looks at the disk only where it comes to.  So two builds that succeed, be it on two disks or
with two configurations, have the same result as soon as they agree on what both of them come to:
graphs on the analyses of their modules (`graphFrom_eq_of_agree`), walks on the listings of their
directories as well (`walk_eq_of_agree`).
-/

namespace ImportAtlas

/-- A search looks at the successors of what it comes to, and at no others. -/
theorem DepthFirst.congr {α : Type} {succ succ' : α → List α} {seen todo order : List α}
    (h : DepthFirst succ seen todo order) (hsucc : ∀ v ∈ order, succ v = succ' v) :
    DepthFirst succ' seen todo order := by
  induction h with
  | nil => exact .nil
  | skip hv _ ih => exact .skip hv (ih hsucc)
  | enter hv _ _ ihInner ihLater =>
    obtain ⟨hfirst, hafter⟩ := List.forall_mem_append.mp hsucc
    obtain ⟨hsucc, hbelow⟩ := List.forall_mem_cons.mp hfirst
    exact .enter hv (hsucc ▸ ihInner hbelow) (ihLater hafter)

namespace FileSystem

variable {fs fs' : FileSystem} {config config' : Config} {id : ModuleId} {leaf : Leaf}
  {modules modules' : OrderedMap ModuleId Leaf}

/-! ## Modules -/

theorem importsOf_of_agree (h : fs.analyze config id = fs'.analyze config' id) :
    fs.importsOf config id = fs'.importsOf config' id := by
  rw [importsOf, importsOf, h]

theorem modulesFrom_of_agree (h : fs.analyze config id = fs'.analyze config' id) :
    fs.modulesFrom config id = fs'.modulesFrom config' id := by
  rw [modulesFrom, modulesFrom, importsOf_of_agree h]

theorem linkLeaf_of_agree {known : List ModuleId}
    (h : ∀ b ∈ known, fs.importsOf config b = fs'.importsOf config' b) (leaf : Leaf) :
    fs.linkLeaf config known leaf = fs'.linkLeaf config' known leaf := by
  have hrecord (e : Edge) (record : ImportRecord) :
      fs.linkRecord config known e record = fs'.linkRecord config' known e record := by
    have hmutual : (e.target ∈ known ∧ e.importer ∈ fs.importsOf config e.target) ↔
        e.target ∈ known ∧ e.importer ∈ fs'.importsOf config' e.target :=
      and_congr_right fun hmem => by rw [h e.target hmem]
    simp only [linkRecord, hmutual]
  have himports : leaf.imports.mapValues (fun b => fs.linkRecord config known ⟨leaf.id, b⟩)
      = leaf.imports.mapValues fun b => fs'.linkRecord config' known ⟨leaf.id, b⟩ :=
    OrderedMap.mapValues_congr fun b _ record => hrecord ⟨leaf.id, b⟩ record
  rw [linkLeaf, linkLeaf, himports]

/-- **Finished builds of the same modules are the same** if they agree on these modules. -/
theorem Assembled.eq_of_agree (h : fs.Assembled config modules)
    (h' : fs'.Assembled config' modules') (hkeys : modules.keys = modules'.keys)
    (hagree : ∀ id ∈ modules.keys, fs.analyze config id = fs'.analyze config' id) :
    modules = modules' := by
  refine OrderedMap.ext_get? hkeys fun id hid => ?_
  obtain ⟨leaf, hleaf, hget⟩ := h id hid
  obtain ⟨leaf', hleaf', hget'⟩ := h' id (hkeys ▸ hid)
  rw [← hagree id hid, hleaf] at hleaf'
  obtain rfl := Except.ok.inj hleaf'
  rw [hget, hget', ← hkeys,
    linkLeaf_of_agree fun b hb => importsOf_of_agree (hagree b hb)]

/-! ## Graphs -/

section Graphs

variable {entry : Path} {g g' : ModuleGraph} {root : ModuleId}

/-- What is reached on one disk is reached on the other one, if the modules on the way say the
same there. -/
theorem Reaches.of_agree (h : fs.Reaches config root id)
    (hagree : ∀ a, fs.Reaches config root a → fs'.Reaches config' root a →
      fs.analyze config a = fs'.analyze config' a) : fs'.Reaches config' root id := by
  induction h with
  | root => exact .root
  | step ha hleaf hb hfile ih =>
    rw [hagree _ ha ih] at hleaf
    exact ih.step hleaf hb hfile

/-- **Graphs of one entry are the same** if they agree on the modules that they have in common. -/
theorem graphFrom_eq_of_agree (hg : fs.graphFrom config entry = .ok g)
    (hg' : fs'.graphFrom config' entry = .ok g')
    (hagree : ∀ id, id ∈ g.modules.keys → id ∈ g'.modules.keys →
      fs.analyze config id = fs'.analyze config' id) : g' = g := by
  have hreached (a : ModuleId) (ha : fs.Reaches config (.ofPath entry) a)
      (ha' : fs'.Reaches config' (.ofPath entry) a) :
      fs.analyze config a = fs'.analyze config' a :=
    hagree a ((mem_keys_graphFrom hg).mpr ha) ((mem_keys_graphFrom hg').mpr ha')
  have hall : ∀ id ∈ g.modules.keys, fs.analyze config id = fs'.analyze config' id := fun id hid =>
    have hid := (mem_keys_graphFrom hg).mp hid
    hreached id hid (hid.of_agree hreached)
  obtain ⟨_, _, horder, _, _, hassembled, hroot⟩ := graphFrom_eq_ok hg
  obtain ⟨_, _, horder', _, _, hassembled', hroot'⟩ := graphFrom_eq_ok hg'
  have hkeys : g.modules.keys = g'.modules.keys :=
    (horder.congr fun id hid => modulesFrom_of_agree (hall id hid)).unique horder'
  have hmodules := hassembled.eq_of_agree hassembled' hkeys hall
  rw [hmodules, hroot'] at hroot
  cases g
  cases g'
  cases Option.some.inj hroot
  cases hmodules
  rfl

/-- **A graph is there as well** wherever all of its modules say the same. -/
theorem graphFrom_of_agree (hg : fs.graphFrom config entry = .ok g)
    (hagree : ∀ id ∈ g.modules.keys, fs.analyze config id = fs'.analyze config' id) :
    fs'.graphFrom config' entry = .ok g := by
  obtain ⟨g', hg'⟩ : ∃ g', fs'.graphFrom config' entry = .ok g' := by
    refine exists_graphFrom_iff.mpr fun id hid => ?_
    have hmem : id ∈ g.modules.keys := (mem_keys_graphFrom hg).mpr <|
      hid.of_agree fun a _ ha => (hagree a ((mem_keys_graphFrom hg).mpr ha)).symm
    obtain ⟨leaf, hleaf⟩ := (assembled_graphFrom hg).exists_leaf hmem
    exact ⟨leaf, hagree id hmem ▸ hleaf⟩
  rw [hg', graphFrom_eq_of_agree hg hg' fun id hid _ => hagree id hid]

end Graphs

/-! ## Walks -/

section Walks

variable {dir : Path} {t t' : DependencyTree} {layout layout' : Layout}

/-- Charts of one directory are the same if they agree on the listings. -/
theorem Charts.eq_of_agree (h : fs.Charts config layout) (h' : fs'.Charts config' layout')
    (hpath : layout.path = layout'.path)
    (hagree : ∀ q l l', fs.listing config q = .ok l → fs'.listing config' q = .ok l' → l = l') :
    layout = layout' := by
  induction h generalizing layout' with
  | @mk path subdirs files hlisting _ ih =>
    obtain @⟨_, subdirs', files', hlisting', hcharts'⟩ := h'
    obtain rfl : path = _ := hpath
    obtain ⟨hpaths, rfl⟩ := Listing.mk.inj (hagree path _ _ hlisting hlisting')
    have hlength : subdirs.length = subdirs'.length := by
      simpa using congrArg List.length hpaths
    congr 1
    refine List.ext_getElem hlength fun i hi hi' => ?_
    refine ih _ (List.getElem_mem hi) (hcharts' _ (List.getElem_mem hi')) ?_
    have hget : (subdirs.map Layout.path)[i]? = (subdirs'.map Layout.path)[i]? := by
      rw [hpaths]
    simpa [hi, hi'] using hget

/-- **Walks of one directory are the same** if they agree on all listings that succeed on both
disks, and on the modules. -/
theorem walk_eq_of_agree (h : fs.walk config dir = .ok t) (h' : fs'.walk config' dir = .ok t')
    (hlistings : ∀ q l l', fs.listing config q = .ok l → fs'.listing config' q = .ok l' → l = l')
    (hagree : ∀ id, id ∈ t.modules.keys → id ∈ t'.modules.keys →
      fs.analyze config id = fs'.analyze config' id) : t' = t := by
  have hassembled := assembled_walk h
  have hassembled' := assembled_walk h'
  obtain ⟨layout, d, hpath, hcharts, _, hkeys, _, rfl⟩ := walk_eq_ok h
  obtain ⟨layout', d', hpath', hcharts', _, hkeys', _, rfl⟩ := walk_eq_ok h'
  obtain rfl := hcharts.eq_of_agree hcharts' (hpath.trans hpath'.symm) hlistings
  have hsame : d.link.modules.keys = d'.link.modules.keys := by
    rw [Draft.keys_link, Draft.keys_link, hkeys, hkeys']
  have hmodules : d.link.modules = d'.link.modules :=
    hassembled.eq_of_agree hassembled' hsame fun id hid => hagree id hid (hsame ▸ hid)
  rw [hmodules]

/-- A walk is there as well if all listings are the same, all of its modules say the same, and the disk
says the same of what is there. -/
theorem walk_of_agree (h : fs.walk config dir = .ok t)
    (hlisting : ∀ dir, fs.listing config dir = fs'.listing config' dir)
    (hmetadata : fs.metadata = fs'.metadata) (hpresent : fs.isPresent = fs'.isPresent)
    (hagree : ∀ id ∈ t.modules.keys, fs.analyze config id = fs'.analyze config' id) :
    fs'.walk config' dir = .ok t := by
  have hcheck : fs'.checkDir dir = .ok () := by
    rw [← checkDir_of_walk h, checkDir, checkDir, hmetadata]
  obtain ⟨layout, d, rfl, hcharts, _, hkeys, _, ht⟩ := walk_eq_ok h
  have hfiles : t.modules.keys = layout.allFiles := by rw [ht, Draft.keys_link, hkeys]
  have hcharts' : fs'.Charts config' layout := by
    have hlayout := congrArg Survey.layout (survey_of_charts hcharts)
    rw [survey_congr hlisting] at hlayout
    exact (charts_of_survey hlayout).2.1
  obtain ⟨t', ht', _⟩ : ∃ t', fs'.walk config' layout.path = .ok t' ∧
      t'.modules.keys = layout.allFiles := by
    refine exists_walk hcharts' hcheck (fun id hid => ?_) fun id hid target htarget => ?_
    · obtain ⟨leaf, hleaf⟩ := (assembled_walk h).exists_leaf (hfiles ▸ hid)
      exact ⟨leaf, hagree id (hfiles ▸ hid) ▸ hleaf⟩
    · rw [← modulesFrom_of_agree (hagree id (hfiles ▸ hid))] at htarget
      rw [← hfiles, ← hpresent]
      exact present_of_walk h (hfiles ▸ hid) htarget
  rw [ht', walk_eq_of_agree h ht' (fun q l l' hl hl' => ?_) fun id hid _ => hagree id hid]
  exact Except.ok.inj (hl.symm.trans ((hlisting q).trans hl'))

end Walks

end FileSystem

end ImportAtlas
