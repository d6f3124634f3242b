import ImportAtlas.Proofs.Placement
import ImportAtlas.Proofs.Sites

/-!
# Proofs/Relocation — a project builds alike wherever it stands

A project is what lies in a directory, told by names alone (`Memory.Project`).  Two disks that hold
nothing but the same project, each in its own place, answer alike below the two places
(`HoldsOnly.alikeBelow`).  So the builds succeed together, and one is the other with its paths moved
(`Memory.builds_relocate`).  What stands above does not count, be it called like a vendor directory.
An import may not climb above the root of the disk, though, where climbing leads nowhere: a project
with such an import may build in one place and fail in another (`Memory.not_relocated_climber`).
-/

namespace ImportAtlas

open ImportAtlas.Path

theorem toOption_eq_map {ε ε' α β : Type} {x : Except ε α} {y : Except ε' β} {f : α → β}
    (h : ∀ a, x = .ok a → y = .ok (f a)) (h' : ∀ b, y = .ok b → ∃ a, x = .ok a) :
    y.toOption = x.toOption.map f := by
  cases x with
  | ok a => rw [h a rfl]; rfl
  | error e =>
    cases y with
    | error e' => rfl
    | ok b =>
      obtain ⟨a, ha⟩ := h' b rfl
      cases ha

namespace Memory

variable {m m' : Memory} {top top' : Path} {names : List String} {name : String}

/-! ## Projects -/

/-- **What lies in a directory**, told by the names on the way to it: the directory itself, and
whatever is below. -/
structure Project where
  entries : OrderedMap (List String) Entry
  plain : ∀ names ∈ entries.keys, ArePlain names
  root : ∃ e, entries.get? [] = some e ∧ e.isDir = true

variable {project : Project}

/-- **A disk that holds only a project**, in the given place: all that is on the disk is what the
project says, or stands above it. -/
structure HoldsOnly (m : Memory) (project : Project) (top : Path) : Prop where
  get?_below : ∀ names ∈ project.entries.keys,
    m.entries.get? (top.below names) = project.entries.get? names
  mem_keys : ∀ p ∈ m.entries.keys,
    p ∈ top.ancestors ∨ ∃ names ∈ project.entries.keys, p = top.below names

theorem route_take (top : Path) (n : Nat) :
    (Route.path ⟨top.route.absolute, top.route.steps.take n⟩).route
      = ⟨top.route.absolute, top.route.steps.take n⟩ := by
  have hcanonical := top.canonical_route
  rw [← List.take_append_drop n top.route.steps, List.reverse_append] at hcanonical
  exact route_path hcanonical.of_append

/-- What stands above a directory has fewer steps. -/
theorem length_lt_of_mem_ancestors {p : Path} (h : p ∈ top.ancestors) :
    p.route.steps.length < top.route.steps.length := by
  obtain ⟨n, hn, rfl⟩ := List.mem_map.mp h
  rw [route_take, List.length_take]
  have := List.mem_range.mp hn
  omega

theorem nodup_ancestors (top : Path) : top.ancestors.Nodup := by
  refine List.Nodup.map_on (fun i hi j hj heq => ?_) List.nodup_range
  have hlength := congrArg (fun p => p.route.steps.length) heq
  simp only [route_take, List.length_take] at hlength
  have := List.mem_range.mp hi
  have := List.mem_range.mp hj
  omega

/-- What stands above a directory is not below it. -/
theorem below_notMem_ancestors (hnames : ArePlain names) : top.below names ∉ top.ancestors := by
  intro h
  have hlt := length_lt_of_mem_ancestors h
  rw [steps_below hnames, List.length_append] at hlt
  omega

/-- **The disk with only a project on it**, in the given place. -/
def Project.disk (project : Project) (top : Path) : Memory where
  entries := .ofList (top.ancestors.map (fun p => (p, Entry.directory))
    ++ project.entries.entries.map (Prod.map top.below fun e => e))
  workingDir := none

theorem Project.entries_disk (project : Project) (top : Path) :
    (project.disk top).entries.entries = top.ancestors.map (fun p => (p, Entry.directory))
      ++ project.entries.entries.map (Prod.map top.below fun e => e) := by
  refine OrderedMap.entries_ofList ?_
  have habove : (top.ancestors.map fun p => (p, Entry.directory)).map Prod.fst = top.ancestors := by
    rw [List.map_map]
    exact List.map_id _
  have hbelow : (project.entries.entries.map (Prod.map top.below fun e => e)).map Prod.fst
      = project.entries.keys.map top.below := by
    rw [List.map_map, OrderedMap.keys, List.map_map]
    rfl
  rw [List.map_append, habove, hbelow, List.nodup_append]
  refine ⟨nodup_ancestors top, ?_, ?_⟩
  · exact List.Nodup.map_on (fun names hnames more hmore =>
      below_inj (project.plain names hnames) (project.plain more hmore)) project.entries.nodup_keys
  · rintro p hp q hq rfl
    obtain ⟨names, hnames, rfl⟩ := List.mem_map.mp hq
    exact below_notMem_ancestors (project.plain names hnames) hp

/-- Every project has such a disk, wherever it is to stand. -/
theorem Project.holdsOnly_disk (project : Project) (top : Path) :
    (project.disk top).HoldsOnly project top where
  get?_below names hnames := by
    obtain ⟨e, he⟩ := OrderedMap.exists_get?_of_mem hnames
    rw [he, OrderedMap.get?_eq_some_iff, project.entries_disk]
    exact List.mem_append_right _ (List.mem_map.mpr ⟨(names, e),
      OrderedMap.get?_eq_some_iff.mp he, rfl⟩)
  mem_keys p hp := by
    rw [OrderedMap.keys, project.entries_disk, List.map_append] at hp
    refine (List.mem_append.mp hp).imp (fun hp => ?_) fun hp => ?_
    · simpa using hp
    · obtain ⟨e, he, rfl⟩ := List.mem_map.mp hp
      obtain ⟨entry, hentry, rfl⟩ := List.mem_map.mp he
      exact ⟨entry.1, List.mem_map_of_mem hentry, rfl⟩

namespace HoldsOnly

variable (h : m.HoldsOnly project top)
include h

/-- **The disk knows below its place what the project knows.** -/
theorem get?_eq (hnames : ArePlain names) :
    m.entries.get? (top.below names) = project.entries.get? names := by
  by_cases hmem : names ∈ project.entries.keys
  · exact h.get?_below names hmem
  · have hnone : top.below names ∉ m.entries.keys := fun hkey => by
      rcases h.mem_keys _ hkey with habove | ⟨more, hmore, heq⟩
      · exact below_notMem_ancestors hnames habove
      · exact hmem (below_inj hnames (project.plain more hmore) heq ▸ hmore)
    rw [OrderedMap.get?_eq_none_iff.mpr hmem, OrderedMap.get?_eq_none_iff.mpr hnone]

theorem find?_eq (hnames : ArePlain names) :
    m.find? (top.below names) = project.entries.get? names := by
  rw [find?, clean_below hnames, h.get?_eq hnames]

theorem mem_keys_iff (hnames : ArePlain names) :
    top.below names ∈ m.entries.keys ↔ names ∈ project.entries.keys := by
  rw [← OrderedMap.isSome_get?_iff, h.get?_eq hnames, OrderedMap.isSome_get?_iff]

/-- What is said of the imports of the project is said of all imports below its place. -/
theorem forall_imports {maxFileSize : Nat} {P : List String → ImportStatement → Prop}
    (hall : ∀ names ∈ project.entries.keys,
      ∀ r ∈ (m.toFileSystem.readStructure maxFileSize (top.below names)).toOption,
        ∀ s ∈ r.2.imports, P names s)
    (names : List String) (hnames : ArePlain names) (dialect : Dialect) (contents : ModuleStructure)
    (hread : m.toFileSystem.readStructure maxFileSize (top.below names) = .ok (dialect, contents)) :
    ∀ s ∈ contents.imports, P names s := by
  refine hall names ?_ (dialect, contents) (by rw [hread]; rfl)
  obtain ⟨_, htext, _⟩ := FileSystem.readText_of_readStructure hread
  obtain ⟨_, hbytes⟩ := FileSystem.contents_of_readText htext
  have hkey := mem_keys_of_contents hbytes
  exact (h.mem_keys_iff hnames).mp (clean_below hnames ▸ hkey)

/-- No entry is spelled like the place of the project with an extension. -/
theorem find?_appendExtension {extension : String} (htop : top.IsSite)
    (hplain : isPlainName extension = true) : m.find? (top.appendExtension extension) = none := by
  obtain ⟨front, last, hsteps, hclean, hroute⟩ := htop.exists_route_appendExtension hplain
  rw [find?, hclean, OrderedMap.get?_eq_none_iff]
  intro hkey
  rcases h.mem_keys _ hkey with habove | ⟨more, hmore, heq⟩
  · have hlt := length_lt_of_mem_ancestors habove
    rw [hroute, hsteps, List.length_append, List.length_append] at hlt
    exact Nat.lt_irrefl _ hlt
  · -- The last step would be its own name with an extension.
    have hlonger := congrArg Route.steps hroute
    rw [heq, steps_below (project.plain more hmore), hsteps, List.append_assoc,
      List.append_cancel_left_eq] at hlonger
    have hlength := congrArg String.length (List.cons.inj hlonger).1
    have hdot : ".".length = 1 := rfl
    simp only [String.length_append] at hlength
    omega

/-- **Nothing stands beside a project**, and it is no file itself. -/
theorem beside (htop : top.IsSite) :
    ∀ p ∈ top :: extended top, m.toFileSystem.isFile p = false := by
  refine List.forall_mem_cons.mpr ⟨?_, List.forall_mem_map.mpr fun extension hextension => ?_⟩
  · obtain ⟨e, he, hdir⟩ := project.root
    have hfind : m.find? (top.below []) = project.entries.get? [] :=
      h.find?_eq fun _ hname => absurd hname List.not_mem_nil
    rw [below_nil htop.clean, he] at hfind
    refine Bool.eq_false_iff.mpr fun hfile => ?_
    obtain ⟨_, data, hdata, hdataFile⟩ := FileSystem.isFile_iff.mp hfile
    obtain ⟨e', he', _, rfl⟩ := metadata_eq_ok_iff.mp hdata
    obtain rfl := Option.some.inj (hfind.symm.trans he')
    exact Bool.false_ne_true ((Entry.isDir_of_isFile hdataFile).symm.trans hdir)
  · have hnone := h.find?_appendExtension htop (FileSystem.isPlainName_probes extension hextension).1
    refine Bool.eq_false_iff.mpr fun hfile => ?_
    have hsome : (m.find? (top.appendExtension extension)).isSome = true :=
      (FileSystem.isFile_iff.mp hfile).1
    rw [hnone] at hsome
    cases hsome

/-- The names in a directory of the project. -/
theorem mem_namesIn_iff (htop : top.isAbsolute = true) (hnames : ArePlain names) :
    name ∈ namesIn m.entries.keys (top.below names) ↔
      isPlainName name = true ∧ names ++ [name] ∈ project.entries.keys := by
  rw [mem_namesIn]
  refine and_congr_right fun hname => ?_
  rw [child_below htop hnames hname]
  exact h.mem_keys_iff (arePlain_concat.mpr ⟨hnames, hname⟩)

end HoldsOnly

/-- **Disks that hold only one project answer alike below the places where it stands.** -/
theorem HoldsOnly.alikeBelow (h : m.HoldsOnly project top) (h' : m'.HoldsOnly project top')
    (htop : top.IsSite) (htop' : top'.IsSite) :
    m.toFileSystem.AlikeBelow m'.toFileSystem top top' where
  contents {names} hnames := by
    change (m'.contents _).toOption = (m.contents _).toOption
    rw [Memory.contents, Memory.contents, h.find?_eq hnames, h'.find?_eq hnames]
    cases project.entries.get? names with
    | none => rfl
    | some e =>
      cases hfault : e.readFault <;> cases hdir : e.isDir <;> simp [hfault, hdir, Except.toOption]
  metadata {names} hnames := by
    change (m'.metadata _).toOption = (m.metadata _).toOption
    rw [Memory.metadata, Memory.metadata, h.find?_eq hnames, h'.find?_eq hnames]
    cases project.entries.get? names with
    | none => rfl
    | some e => cases hfault : e.metadataFault <;> simp [hfault, Except.toOption]
  isPresent {names} hnames := by
    change (m'.find? _).isSome = (m.find? _).isSome
    rw [h.find?_eq hnames, h'.find?_eq hnames]
  names {names} hnames := by
    change (m'.names _).toOption.map _ = (m.names _).toOption.map _
    rw [Memory.names, Memory.names, h.find?_eq hnames, h'.find?_eq hnames, clean_below hnames,
      clean_below hnames]
    have hperm : (namesIn m'.entries.keys (top'.below names)).Perm
        (namesIn m.entries.keys (top.below names)) := by
      refine (List.perm_ext_iff_of_nodup (nodup_namesIn m'.entries.nodup_keys _)
        (nodup_namesIn m.entries.nodup_keys _)).mpr fun name => ?_
      exact (h'.mem_namesIn_iff htop'.absolute hnames).trans
        (h.mem_namesIn_iff htop.absolute hnames).symm
    cases project.entries.get? names with
    | none => rfl
    | some e =>
      cases hfault : e.readFault with
      | some fault => simp only [hfault, Except.toOption]
      | none =>
        simp only [hfault, Except.toOption, Option.map_some, Listing.sortNames_eq_of_perm hperm]
  beside := h.beside htop
  beside' := h'.beside htop'

/-! ## Builds -/

theorem absolute_below (htop : top.IsSite) (hnames : ArePlain names) :
    m.toFileSystem.absolute (top.below names) = .ok (top.below names) := by
  rw [FileSystem.absolute, if_pos ((isAbsolute_below hnames).trans htop.absolute),
    clean_below hnames]

/-- **A project builds alike wherever it stands.**  Let two disks hold nothing but one project, each
at a site of its own, and let the specifiers of all module files stay inside, here and there.  Then
the build of a directory or from an entry of the project succeeds on the one disk if and only if it
does on the other, and the results are the same but for the paths, in which the one site stands in
place of the other.  The names above the sites may be any, also those of vendor directories. -/
theorem builds_relocate (config : Config) (hm : m.HoldsOnly project top)
    (hm' : m'.HoldsOnly project top') (htop : top.IsSite) (htop' : top'.IsSite)
    (hstay : m.toFileSystem.SpecifiersStay config.maxFileSize top)
    (hstay' : m'.toFileSystem.SpecifiersStay config.maxFileSize top') (hnames : ArePlain names) :
    (m'.toFileSystem.dependencyTree config (top'.below names)).toOption
        = (m.toFileSystem.dependencyTree config (top.below names)).toOption.map
            (DependencyTree.relocate (rebase top top')) ∧
      (m'.toFileSystem.moduleGraph config (top'.below names)).toOption
        = (m.toFileSystem.moduleGraph config (top.below names)).toOption.map
            (ModuleGraph.relocate (rebase top top')) := by
  have halike := hm.alikeBelow hm' htop htop'
  have hthere := halike.carriesTo htop htop' hstay hstay'
  have hback := halike.symm.carriesTo htop' htop hstay' hstay
  have hmove := rebase_below top top' hnames
  have hmoveBack := rebase_below top' top hnames
  constructor
  · rw [FileSystem.dependencyTree_of_absolute (absolute_below htop hnames),
      FileSystem.dependencyTree_of_absolute (absolute_below htop' hnames)]
    refine toOption_eq_map (fun t ht => ?_) fun t ht => ?_
    · exact hmove ▸ hthere.walk_eq ⟨names, hnames, rfl⟩ ht
    · exact ⟨_, hmoveBack ▸ hback.walk_eq ⟨names, hnames, rfl⟩ ht⟩
  · rw [FileSystem.moduleGraph_of_absolute (absolute_below htop hnames),
      FileSystem.moduleGraph_of_absolute (absolute_below htop' hnames)]
    refine toOption_eq_map (fun g hg => ?_) fun g hg => ?_
    · exact hmove ▸ hthere.graphFrom_eq ⟨names, hnames, rfl⟩ hg
    · exact ⟨_, hmoveBack ▸ hback.graphFrom_eq ⟨names, hnames, rfl⟩ hg⟩

/-! ## A project in two places -/

/-- Two modules that import each other. -/
def Project.pair : Project where
  entries := .ofList [([], .directory), (["a.ts"], { kind := .file "import './b'".toUTF8 }),
    (["b.ts"], { kind := .file "import './a'".toUTF8 })]
  plain := by decide
  root := ⟨_, rfl, rfl⟩

/-- A module whose import climbs higher than the project, and comes back by the names of directories
above it. -/
def Project.climber : Project where
  entries := .ofList [([], .directory), (["main.ts"], { kind := .file "import '../../p/q'".toUTF8 }),
    (["q.ts"], { kind := .file "".toUTF8 })]
  plain := by decide
  root := ⟨_, rfl, rfl⟩

/-- Where the two modules stand: once below a vendor directory, and once not. -/
def vendoredSite : Path := ⟨"/node_modules/app"⟩
@[inherit_doc vendoredSite] def openSite : Path := ⟨"/app"⟩

theorem isSite_pair : vendoredSite.IsSite ∧ openSite.IsSite :=
  ⟨⟨by decide +kernel, by decide, by decide, by decide +kernel⟩,
    ⟨by decide +kernel, by decide, by decide, by decide +kernel⟩⟩

theorem specifiersStay_pair {top : Path} (htop : top = vendoredSite ∨ top = openSite) :
    (Project.pair.disk top).toFileSystem.SpecifiersStay 10485760 top := by
  refine (Project.pair.holdsOnly_disk top).forall_imports ?_
  rcases htop with rfl | rfl <;> decide +kernel

/-- Two modules that import each other make the same tree and the same graph below a vendor directory
as elsewhere. -/
theorem builds_relocate_pair :
    (Project.pair.disk openSite).HoldsOnly Project.pair openSite ∧
    (Project.pair.disk vendoredSite).HoldsOnly Project.pair vendoredSite ∧
    openSite.IsSite ∧ vendoredSite.IsSite ∧
    (Project.pair.disk openSite).toFileSystem.SpecifiersStay 10485760 openSite ∧
    (Project.pair.disk vendoredSite).toFileSystem.SpecifiersStay 10485760 vendoredSite ∧
    ArePlain [] ∧ ArePlain ["a.ts"] ∧
    (∃ t, (Project.pair.disk openSite).toFileSystem.dependencyTree {} (openSite.below []) = .ok t ∧
      (Project.pair.disk vendoredSite).toFileSystem.dependencyTree {} (vendoredSite.below [])
        = .ok (t.relocate (rebase openSite vendoredSite))) ∧
    ∃ g, (Project.pair.disk openSite).toFileSystem.moduleGraph {} (openSite.below ["a.ts"]) = .ok g ∧
      (Project.pair.disk vendoredSite).toFileSystem.moduleGraph {} (vendoredSite.below ["a.ts"])
        = .ok (g.relocate (rebase openSite vendoredSite)) := by
  have hopen := Project.pair.holdsOnly_disk openSite
  have hvendored := Project.pair.holdsOnly_disk vendoredSite
  obtain ⟨hsite', hsite⟩ := isSite_pair
  have hstay := specifiersStay_pair (.inr rfl)
  have hstay' := specifiersStay_pair (.inl rfl)
  have hmoved {names : List String} (hnames : ArePlain names) :=
    builds_relocate {} hopen hvendored hsite hsite' hstay hstay' hnames
  have hroot : ArePlain [] := by decide
  have hentry : ArePlain ["a.ts"] := by decide
  have hself : (Project.pair.disk openSite).toFileSystem.IsSelfContained {}
      [⟨⟨"/app/a.ts"⟩⟩, ⟨⟨"/app/b.ts"⟩⟩] := by decide +kernel
  have hlisting : (Project.pair.disk openSite).toFileSystem.listing {} openSite
      = .ok ⟨[], [⟨⟨"/app/a.ts"⟩⟩, ⟨⟨"/app/b.ts"⟩⟩]⟩ := by
    have hnames : (Project.pair.disk openSite).toFileSystem.names openSite
        = .ok ["a.ts", "b.ts"] := rfl
    rw [FileSystem.listing_of_sorted hnames (by decide)]
    rfl
  obtain ⟨t, ht, _⟩ := hself.exists_walk_of_listing hlisting rfl
  have hmem : ModuleId.ofPath (openSite.below ["a.ts"]) ∈
      [(⟨⟨"/app/a.ts"⟩⟩ : ModuleId), ⟨⟨"/app/b.ts"⟩⟩] := by decide +kernel
  obtain ⟨g, hg⟩ := hself.exists_graph hmem
  have htree : (Project.pair.disk openSite).toFileSystem.dependencyTree {} (openSite.below [])
      = .ok t := by
    rw [FileSystem.dependencyTree_of_absolute (absolute_below hsite hroot), below_nil hsite.clean]
    exact ht
  rw [← FileSystem.moduleGraph_of_absolute (absolute_below hsite hentry)] at hg
  refine ⟨hopen, hvendored, hsite, hsite', hstay, hstay', hroot, hentry, ⟨t, htree, ?_⟩, g, hg, ?_⟩
  · exact eq_ok_of_toOption ((hmoved hroot).1.trans (by rw [htree]; rfl))
  · exact eq_ok_of_toOption ((hmoved hentry).2.trans (by rw [hg]; rfl))

/-- **A project whose import climbs above the root of the disk** may build in one place and not in
another, although the path that the import names lies at or below the project in both.  Where there
is one directory less to climb, climbing twice leads as far as climbing once. -/
theorem not_relocated_climber : ∃ low high : Path, low = ⟨"/p"⟩ ∧ high = ⟨"/p/q"⟩ ∧
    low.IsSite ∧ high.IsSite ∧
    (Project.climber.disk low).HoldsOnly Project.climber low ∧
    (Project.climber.disk high).HoldsOnly Project.climber high ∧
    (∀ top, top = low ∨ top = high → ∀ names, ArePlain names → ∀ dialect contents,
      (Project.climber.disk top).toFileSystem.readStructure 10485760 (top.below names)
        = .ok (dialect, contents) →
      ∀ s ∈ contents.imports, isRelative s.source = true → (Path.mk s.source).isAbsolute = false ∧
        top.route.steps <+: (candidatePath (top.below names) s.source).route.steps) ∧
    (∃ t, (Project.climber.disk low).toFileSystem.dependencyTree {} low = .ok t) ∧
    ∃ e, (Project.climber.disk high).toFileSystem.dependencyTree {} high = .error e := by
  have hlow : Path.IsSite ⟨"/p"⟩ := ⟨by decide +kernel, by decide, by decide, by decide +kernel⟩
  have hhigh : Path.IsSite ⟨"/p/q"⟩ := ⟨by decide +kernel, by decide, by decide, by decide +kernel⟩
  have hhigher := Project.climber.holdsOnly_disk ⟨"/p/q"⟩
  refine ⟨_, _, rfl, rfl, hlow, hhigh, Project.climber.holdsOnly_disk _, hhigher, ?_, ?_, ?_⟩
  · intro top htop
    refine (Project.climber.holdsOnly_disk top).forall_imports ?_
    rcases htop with rfl | rfl <;> decide +kernel
  · have hself : (Project.climber.disk ⟨"/p"⟩).toFileSystem.IsSelfContained {}
        [⟨⟨"/p/main.ts"⟩⟩, ⟨⟨"/p/q.ts"⟩⟩] := by decide +kernel
    have hlisting : (Project.climber.disk ⟨"/p"⟩).toFileSystem.listing {} ⟨"/p"⟩
        = .ok ⟨[], [⟨⟨"/p/main.ts"⟩⟩, ⟨⟨"/p/q.ts"⟩⟩]⟩ := by
      have hnames : (Project.climber.disk ⟨"/p"⟩).toFileSystem.names ⟨"/p"⟩
          = .ok ["main.ts", "q.ts"] := rfl
      rw [FileSystem.listing_of_sorted hnames (by decide)]
      rfl
    obtain ⟨t, ht, _⟩ := hself.exists_walk_of_listing hlisting rfl
    exact ⟨t, ht⟩
  · have hmodule : (Project.climber.disk ⟨"/p/q"⟩).toFileSystem.HasModule ⟨"/p/q"⟩ "main.ts" :=
      (hasModule_iff hhigh.clean hhigh.absolute).mpr
        ⟨by decide, ⟨_, rfl, rfl⟩, _, rfl, rfl, rfl, rfl, by decide +kernel⟩
    have hfails : ((Project.climber.disk ⟨"/p/q"⟩).toFileSystem.analyze {}
        (.ofPath (child ⟨"/p/q"⟩ "main.ts"))).leaf.isOk = false := by decide +kernel
    cases htree : (Project.climber.disk ⟨"/p/q"⟩).toFileSystem.dependencyTree {} ⟨"/p/q"⟩ with
    | error e => exact ⟨e, rfl⟩
    | ok t =>
      have habsolute : (Project.climber.disk ⟨"/p/q"⟩).toFileSystem.absolute ⟨"/p/q"⟩
          = .ok ⟨"/p/q"⟩ := rfl
      rw [FileSystem.dependencyTree_of_absolute habsolute] at htree
      have hmem := (FileSystem.mem_keys_walk htree).mpr
        ⟨_, "main.ts", ⟨[], .here, by simp⟩, hmodule, rfl⟩
      obtain ⟨leaf, hleaf, _⟩ := FileSystem.assembled_walk htree _ hmem
      rw [hleaf] at hfails
      cases hfails

end Memory

end ImportAtlas
