import ImportAtlas.Proofs.Below
import ImportAtlas.Proofs.Faults
import ImportAtlas.Proofs.Transport
import Mathlib.Data.List.Find

/-!
# Proofs/Sites — disks that answer alike below two directories

Two disks answer alike below two directories if they say the same about the paths that the same names
lead to (`AlikeBelow`).  Then texts, listings and probes correspond, one after the other, and so do
resolutions as long as specifiers stay inside (`resolve_of_alike`).  Hence the builds of the one disk
are carried into those of the other (`AlikeBelow.carriesTo`).
-/

namespace ImportAtlas

theorem ok_of_toOption_eq {ε ε' α : Type} {x : Except ε α} {y : Except ε' α} {a : α}
    (h : y.toOption = x.toOption) (hx : x = .ok a) : y = .ok a :=
  eq_ok_of_toOption (h.trans (congrArg Except.toOption hx))

/-! ## Sites -/

namespace Path

variable {top top' : Path} {a names : List String} {name : String}

/-- **A directory that a project may stand in**: a clean path from the root of the disk, but not this
root, and not taken for a module file. -/
structure IsSite (top : Path) : Prop where
  clean : top.clean = top
  absolute : top.isAbsolute = true
  ne_root : top ≠ ⟨"/"⟩
  not_module : top.isModuleFile = false

theorem IsSite.steps_ne_nil (h : top.IsSite) : top.route.steps ≠ [] := fun hnil => by
  refine h.ne_root ?_
  have hroute : top.route = ⟨true, []⟩ := by
    rw [← h.absolute, ← hnil]
    rfl
  rw [← h.clean, Path.clean, hroute]
  rfl

/-- An extension behind a site makes another path of as many steps. -/
theorem IsSite.exists_route_appendExtension {extension : String} (h : top.IsSite)
    (hplain : isPlainName extension = true) : ∃ front last,
      top.route.steps = front ++ [last] ∧
      (top.appendExtension extension).clean = top.appendExtension extension ∧
      (top.appendExtension extension).route = ⟨true, front ++ [last ++ "." ++ extension]⟩ := by
  obtain ⟨front, last, hsteps⟩ : ∃ front last, top.route.steps = front ++ [last] :=
    (List.eq_nil_or_concat' _).resolve_left h.steps_ne_nil
  have hspelled : Route.path ⟨true, front ++ [last]⟩ = top := by
    rw [← hsteps, ← h.absolute]
    exact h.clean
  have hcanonical : Canonical true (last :: front.reverse) := by
    have hcanonical := top.canonical_route
    rwa [hsteps, List.reverse_concat, show top.route.absolute = true from h.absolute] at hcanonical
  have hlonger := canonical_append_extension hcanonical.2.2 hcanonical.1.2.2 hplain
  have hpath : top.appendExtension extension
      = Route.path ⟨true, front ++ [last ++ "." ++ extension]⟩ := by
    rw [← appendExtension_path, hspelled]
  refine ⟨front, last, hsteps, ?_, ?_⟩
  · rw [hpath, clean_path hlonger]
  · rw [hpath, route_path hlonger]

/-- The path with one directory in the place of another; a path that does not lie there stays. -/
def rebase (top top' p : Path) : Path :=
  (top.route.steps.isPrefixOf? p.route.steps).elim p top'.below

theorem rebase_below (top top' : Path) (h : ArePlain names) :
    rebase top top' (top.below names) = top'.below names := by
  have hrest : top.route.steps.isPrefixOf? (top.below names).route.steps = some names :=
    List.isPrefixOf?_eq_some_iff_append_eq.mpr (steps_below h).symm
  rw [rebase, hrest]
  rfl

theorem rebase_inj {p q : Path} (hp : top.IsBelow p) (hq : top.IsBelow q)
    (h : rebase top top' p = rebase top top' q) : p = q := by
  obtain ⟨names, hnames, rfl⟩ := hp
  obtain ⟨more, hmore, rfl⟩ := hq
  rw [rebase_below top top' hnames, rebase_below top top' hmore] at h
  rw [below_inj hnames hmore h]

/-- Whether a path is that of a module does not depend on the site. -/
theorem dialect?_below (htop : top.IsSite) (htop' : top'.IsSite) (h : ArePlain names) :
    (top'.below names).dialect? = (top.below names).dialect? := by
  rcases List.eq_nil_or_concat' names with rfl | ⟨a, name, rfl⟩
  · have hnone {p : Path} (hp : p.IsSite) : p.dialect? = none := by
      simpa [isModuleFile] using hp.not_module
    rw [below_nil htop.clean, below_nil htop'.clean, hnone htop, hnone htop']
  · rw [dialect?, dialect?, extension?_below htop.absolute h, extension?_below htop'.absolute h]

theorem isModuleFile_below (htop : top.IsSite) (htop' : top'.IsSite) (h : ArePlain names) :
    (top'.below names).isModuleFile = (top.below names).isModuleFile := by
  rw [isModuleFile, isModuleFile, dialect?_below htop htop' h]

theorem child_rebase (htop : top.isAbsolute = true) (htop' : top'.isAbsolute = true)
    (h : ArePlain names) (hname : isPlainName name = true) :
    rebase top top' ((top.below names).child name) = (top'.below names).child name := by
  rw [child_below htop h hname, child_below htop' h hname,
    rebase_below top top' (arePlain_concat.mpr ⟨h, hname⟩)]

end Path

open ImportAtlas.Path

/-! ## What directories list -/

theorem ModuleId.ofPath_below (top top' : Path) {names : List String} (h : ArePlain names) :
    ModuleId.ofPath (top'.below names)
      = (ModuleId.ofPath (top.below names)).relocate (rebase top top') := by
  rw [ofPath, ofPath, relocate, clean_below h, clean_below h, rebase_below top top' h]

theorem ModuleId.isBelow_ofPath {top : Path} {names : List String} (h : ArePlain names) :
    top.IsBelow (ofPath (top.below names)).path := ⟨names, h, clean_below h⟩

/-- Entries of a directory are sorted by what they are, wherever the directory stands. -/
theorem Listing.ofEntries_rebase {top top' : Path} {config : Config} {names : List String}
    {es : List (String × Metadata)} (htop : top.IsSite) (htop' : top'.IsSite)
    (hnames : ArePlain names) (hes : ∀ e ∈ es, isPlainName e.1 = true) :
    ofEntries config (top'.below names) es
      = (ofEntries config (top.below names) es).relocate (rebase top top') := by
  rw [ofEntries, ofEntries, relocate, List.map_filterMap, List.map_filterMap]
  congr 1
  · refine List.filterMap_congr fun e he => ?_
    rw [subdir?, subdir?]
    split
    · rw [Option.map_some, child_rebase htop.absolute htop'.absolute hnames (hes e he)]
    · rfl
  · refine List.filterMap_congr fun e he => ?_
    have hmore := arePlain_concat.mpr ⟨hnames, hes e he⟩
    simp only [moduleFile?, child_below htop.absolute hnames (hes e he),
      child_below htop'.absolute hnames (hes e he), isModuleFile_below htop htop' hmore]
    split
    · rw [Option.map_some, ← ModuleId.ofPath_below top top' hmore]
    · rfl

/-- What is listed of a directory lies below the site as well. -/
theorem Listing.isBelow_ofEntries {top : Path} {config : Config} {names : List String}
    {es : List (String × Metadata)} (htop : top.IsSite) (hnames : ArePlain names)
    (hes : ∀ e ∈ es, isPlainName e.1 = true) :
    (∀ q ∈ (ofEntries config (top.below names) es).subdirs, top.IsBelow q) ∧
      ∀ id ∈ (ofEntries config (top.below names) es).files, top.IsBelow id.path := by
  refine ⟨fun q hq => ?_, fun id hid => ?_⟩
  · obtain ⟨e, he, hq⟩ := List.mem_filterMap.mp hq
    rw [subdir?] at hq
    split at hq
    · obtain rfl := Option.some.inj hq
      exact ⟨names ++ [e.1], arePlain_concat.mpr ⟨hnames, hes e he⟩,
        child_below htop.absolute hnames (hes e he)⟩
    · cases hq
  · obtain ⟨e, he, hid⟩ := List.mem_filterMap.mp hid
    simp only [moduleFile?, child_below htop.absolute hnames (hes e he)] at hid
    split at hid
    · obtain rfl := Option.some.inj hid
      exact ModuleId.isBelow_ofPath (arePlain_concat.mpr ⟨hnames, hes e he⟩)
    · cases hid

/-! ## Where statements lead -/

/-- What an import leads to, at the image of its path. -/
def Resolution.relocate (g : Path → Path) : Resolution → Resolution
  | file target => file (target.relocate g)
  | external specifier => external specifier

/-- Statements lead to the images of files, if each does. -/
theorem Targets.of_relocate {g : Path → Path}
    {resolve resolve' : String → Except BuildError Resolution} {statements : List ImportStatement}
    {found : List (ModuleId × ImportStatement)}
    (h : ∀ s ∈ statements, ∀ r, resolve s.source = .ok r → resolve' s.source = .ok (r.relocate g))
    (hof : Targets.of resolve statements = ⟨found, none⟩) :
    Targets.of resolve' statements
      = ⟨found.map (Prod.map (ModuleId.relocate g) fun statement => statement), none⟩ := by
  induction statements generalizing found with
  | nil =>
    obtain ⟨rfl, _⟩ := Targets.mk.inj hof
    rfl
  | cons s rest ih =>
    obtain ⟨hs, hrest⟩ := List.forall_mem_cons.mp h
    cases hresolve : resolve s.source with
    | error e =>
      rw [Targets.of, hresolve] at hof
      cases hof
    | ok r =>
      have hresolve' := hs r hresolve
      cases r with
      | external specifier =>
        rw [Targets.of, hresolve] at hof
        rw [Targets.of, hresolve']
        exact ih hrest hof
      | file target =>
        rw [Targets.of, hresolve] at hof
        rw [Targets.of, hresolve']
        obtain ⟨rfl, hfailure⟩ := Targets.mk.inj hof
        have hlater := ih hrest (congrArg (Targets.mk _) hfailure)
        simp only [Resolution.relocate, hlater, List.map_cons, Prod.map]

namespace FileSystem

variable {fs fs' : FileSystem} {config : Config} {top top' : Path} {a c names listed : List String}
  {name specifier : String}

/-! ## Answers -/

/-- **Disks that answer alike below two directories**: about the paths that the same names lead to
they say the same, but for the words of errors and the order in which names are listed.  Neither has a
file in the place of the directory, or one that is spelled like it with an extension. -/
structure AlikeBelow (fs fs' : FileSystem) (top top' : Path) : Prop where
  contents : ∀ {names}, ArePlain names →
    (fs'.contents (top'.below names)).toOption = (fs.contents (top.below names)).toOption
  metadata : ∀ {names}, ArePlain names →
    (fs'.metadata (top'.below names)).toOption = (fs.metadata (top.below names)).toOption
  isPresent : ∀ {names}, ArePlain names →
    fs'.isPresent (top'.below names) = fs.isPresent (top.below names)
  names : ∀ {names}, ArePlain names →
    (fs'.names (top'.below names)).toOption.map Listing.sortNames
      = (fs.names (top.below names)).toOption.map Listing.sortNames
  beside : ∀ p ∈ top :: extended top, fs.isFile p = false
  beside' : ∀ p ∈ top' :: extended top', fs'.isFile p = false

theorem AlikeBelow.symm (h : fs.AlikeBelow fs' top top') : fs'.AlikeBelow fs top' top where
  contents hnames := (h.contents hnames).symm
  metadata hnames := (h.metadata hnames).symm
  isPresent hnames := (h.isPresent hnames).symm
  names hnames := (h.names hnames).symm
  beside := h.beside'
  beside' := h.beside

/-- **A disk on which specifiers stay inside of a directory**: each relative specifier of a module
file below it does. -/
def SpecifiersStay (fs : FileSystem) (maxFileSize : Nat) (top : Path) : Prop :=
  ∀ names, ArePlain names → ∀ dialect contents,
    fs.readStructure maxFileSize (top.below names) = .ok (dialect, contents) →
    ∀ s ∈ contents.imports, isRelative s.source = true →
      StaysInside top (top.below names) s.source

/-! ## What is tried -/

/-- The names of the index files of a directory. -/
def indexNames (c : List String) : List (List String) :=
  probeExtensions.map fun extension => c ++ ["index." ++ extension]

/-- The names that are tried for some names: those of index files if these are of a directory, then
those with an extension more, then the names themselves if they have one. -/
def triedNames (isDir : Bool) (c : List String) : List (List String) :=
  (if isDir then indexNames c else []) ++ c.getLast?.elim [] fun last =>
    (probeExtensions.map fun extension => c.dropLast ++ [last ++ "." ++ extension]) ++
      if (extensionOfName? last).isSome then [c] else []

theorem arePlain_of_mem_triedNames (isDir : Bool) (hc : ArePlain c) :
    ∀ names ∈ triedNames isDir c, ArePlain names := by
  refine List.forall_mem_append.mpr ⟨?_, ?_⟩
  · split
    · refine List.forall_mem_map.mpr fun extension hextension => ?_
      exact arePlain_concat.mpr ⟨hc, (isPlainName_probes extension hextension).2⟩
    · exact List.forall_mem_nil _
  · rcases List.eq_nil_or_concat' c with rfl | ⟨front, last, rfl⟩
    · exact List.forall_mem_nil _
    · obtain ⟨hfront, hlast⟩ := arePlain_concat.mp hc
      rw [List.getLast?_concat, Option.elim_some, List.dropLast_concat, List.forall_mem_append]
      constructor
      · refine List.forall_mem_map.mpr fun extension hextension => ?_
        have hplain := (isPlainName_probes extension hextension).1
        exact arePlain_concat.mpr
          ⟨hfront, isPlainName_append_extension (slash_notMem_of_isPlainName hlast) hplain⟩
      · split
        · exact List.forall_mem_singleton.mpr hc
        · exact List.forall_mem_nil _

theorem indexFiles_below (htop : top.isAbsolute = true) (hc : ArePlain c) :
    indexFiles (top.below c) = (indexNames c).map top.below := by
  rw [indexFiles, indexNames, List.map_map]
  refine List.map_congr_left fun extension hextension => ?_
  exact child_below htop hc (isPlainName_probes extension hextension).2

theorem extended_below (a : List String) (name : String) : extended (top.below (a ++ [name]))
    = (probeExtensions.map fun extension => a ++ [name ++ "." ++ extension]).map top.below := by
  rw [extended, List.map_map]
  exact List.map_congr_left fun extension _ => appendExtension_below extension

/-- **The search for a file looks at tried names**, below a directory beside which there are no files.
Where the path is the directory itself, nothing but its index files can be found. -/
theorem find?_probes_below (htop : top.IsSite)
    (hbeside : ∀ p ∈ top :: extended top, fs.isFile p = false) (hc : ArePlain c) :
    (fs.probes (top.below c)).find? fs.isFile
      = ((triedNames (fs.isDir (top.below c)) c).map top.below).find? fs.isFile := by
  have hindex : ((if fs.isDir (top.below c) then indexNames c else []).map top.below)
      = if fs.isDir (top.below c) then indexFiles (top.below c) else [] := by
    rw [indexFiles_below htop.absolute hc]
    split <;> rfl
  rw [probes, triedNames, List.map_append, hindex, List.append_assoc]
  refine (List.find?_append ..).trans (Eq.trans ?_ (List.find?_append ..).symm)
  congr 1
  rcases List.eq_nil_or_concat' c with rfl | ⟨front, last, rfl⟩
  · rw [below_nil htop.clean]
    refine List.find?_eq_none.mpr fun p hp => Bool.eq_false_iff.mp (hbeside p ?_)
    rcases List.mem_append.mp hp with hp | hp
    · exact List.mem_cons_of_mem _ hp
    · split at hp
      · exact List.mem_singleton.mp hp ▸ List.mem_cons_self
      · cases hp
  · rw [extended_below, extension?_below htop.absolute hc, List.getLast?_concat, Option.elim_some,
      List.dropLast_concat, List.map_append]
    split <;> rfl

section Alike

variable (h : fs.AlikeBelow fs' top top') (htop : top.IsSite) (htop' : top'.IsSite)
include h

namespace AlikeBelow

theorem isFile_eq (hnames : ArePlain names) :
    fs'.isFile (top'.below names) = fs.isFile (top.below names) := by
  rw [isFile, isFile, h.isPresent hnames, h.metadata hnames]

theorem isDir_eq (hnames : ArePlain names) :
    fs'.isDir (top'.below names) = fs.isDir (top.below names) := by
  rw [isDir, isDir, h.isPresent hnames, h.metadata hnames]

theorem checkDir_eq (hnames : ArePlain names) (hdir : fs.checkDir (top.below names) = .ok ()) :
    fs'.checkDir (top'.below names) = .ok () := by
  rw [checkDir] at hdir
  split at hdir
  · rename_i m hm
    rw [checkDir, ok_of_toOption_eq (h.metadata hnames) hm]
    split at hdir
    · rename_i hisDir
      exact if_pos hisDir
    · cases hdir
  · split at hdir <;> cases hdir

/-! ## Reading -/

theorem readText_eq {maxFileSize : Nat} {text : String} (hnames : ArePlain names)
    (hread : fs.readText maxFileSize (top.below names) = .ok text) :
    fs'.readText maxFileSize (top'.below names) = .ok text := by
  rw [readText] at hread
  rw [readText, h.metadata hnames]
  split at hread
  · cases hread
  · split at hread
    · cases hread
    · rename_i bytes hbytes
      simp only [ok_of_toOption_eq (h.contents hnames) hbytes]
      split at hread
      · cases hread
      · rename_i hsmall
        rw [if_neg hsmall]
        split at hread
        · exact hread
        · cases hread

include htop htop'

/-- **A module file says the same on both disks.** -/
theorem readStructure_eq {maxFileSize : Nat} {r : Dialect × ModuleStructure}
    (hnames : ArePlain names) (hread : fs.readStructure maxFileSize (top.below names) = .ok r) :
    fs'.readStructure maxFileSize (top'.below names) = .ok r := by
  obtain ⟨text, htext, hdialect, hparse⟩ := readText_of_readStructure hread
  rw [← dialect?_below htop htop' hnames] at hdialect
  simp only [readStructure, hdialect, h.readText_eq hnames htext, hparse]

/-! ## Listing -/

theorem entriesOf_eq {es : List (String × Metadata)} (hnames : ArePlain names)
    (hlisted : ArePlain listed) (hes : fs.entriesOf (top.below names) listed = .ok es) :
    fs'.entriesOf (top'.below names) listed = .ok es := by
  induction listed generalizing es with
  | nil => exact hes
  | cons name rest ih =>
    obtain ⟨hname, hrest⟩ := List.forall_mem_cons.mp hlisted
    rw [entriesOf, child_below htop.absolute hnames hname] at hes
    rw [entriesOf, child_below htop'.absolute hnames hname]
    split at hes
    · cases hes
    · rename_i m hm
      have hm' := ok_of_toOption_eq (h.metadata (arePlain_concat.mpr ⟨hnames, hname⟩)) hm
      cases hlater : fs.entriesOf (top.below names) rest with
      | error e =>
        rw [hlater] at hes
        cases hes
      | ok later =>
        rw [hlater] at hes
        simp only [hm', ih hrest hlater]
        exact hes

/-- **A directory lists the images of what it lists on the other disk.** -/
theorem listing_eq {l : Listing} (hnames : ArePlain names)
    (hl : fs.listing config (top.below names) = .ok l) :
    fs'.listing config (top'.below names) = .ok (l.relocate (rebase top top')) ∧
      (∀ q ∈ l.subdirs, top.IsBelow q) ∧ ∀ id ∈ l.files, top.IsBelow id.path := by
  rw [listing] at hl
  split at hl
  · cases hl
  · rename_i listed hlisted
    have hplain : ArePlain (Listing.sortNames listed) := fun name hname =>
      fs.names_plain _ _ hlisted name ((Listing.sortNames_perm listed).mem_iff.mp hname)
    have hsorted := h.names hnames
    rw [hlisted] at hsorted
    obtain ⟨listed', hlisted', hsorted⟩ := Option.map_eq_some_iff.mp hsorted
    cases hes : fs.entriesOf (top.below names) (Listing.sortNames listed) with
    | error e =>
      rw [hes] at hl
      cases hl
    | ok es =>
      rw [hes] at hl
      obtain rfl := Except.ok.inj hl
      have hentry : ∀ e ∈ es, isPlainName e.1 = true := fun e he => by
        refine hplain e.1 ?_
        rw [← map_fst_entriesOf hes]
        exact List.mem_map_of_mem he
      refine ⟨?_, Listing.isBelow_ofEntries htop hnames hentry⟩
      rw [listing, eq_ok_of_toOption hlisted']
      simp only [hsorted, h.entriesOf_eq htop htop' hnames hplain hes]
      exact congrArg Except.ok (Listing.ofEntries_rebase htop htop' hnames hentry)

/-! ## Probing -/

/-- **The search for a file ends at the same names on both disks.** -/
theorem exists_find?_probes (hc : ArePlain c) : ∃ found : Option (List String),
    (∀ names, found = some names → ArePlain names) ∧
    (fs.probes (top.below c)).find? fs.isFile = found.map top.below ∧
    (fs'.probes (top'.below c)).find? fs'.isFile = found.map top'.below := by
  have hplain := arePlain_of_mem_triedNames (fs.isDir (top.below c)) hc
  refine ⟨(triedNames (fs.isDir (top.below c)) c).find? (fs.isFile ∘ top.below),
    fun names hnames => ?_, ?_, ?_⟩
  · exact hplain names (List.mem_of_find?_eq_some hnames)
  · rw [find?_probes_below htop h.beside hc, List.find?_map]
  · rw [find?_probes_below htop' h.beside' hc, List.find?_map, h.isDir_eq hc]
    exact congrArg (Option.map _)
      (List.find?_congr fun names hnames => h.isFile_eq (hplain names hnames))

/-! ## Resolving -/

/-- A specifier that leads to the same names, and to no vendor directory, leads to the same file. -/
theorem resolve_eq_of_landing {vendorDirs : List String} {r : Resolution}
    {importer importer' : Path} (hc : ArePlain c) (hrelative : isRelative specifier = true)
    (hcandidate : candidatePath importer specifier = top.below c)
    (hcandidate' : candidatePath importer' specifier = top'.below c)
    (hlocal : isVendored importer (top.below c) vendorDirs = false)
    (hlocal' : isVendored importer' (top'.below c) vendorDirs = false)
    (hr : fs.resolve vendorDirs importer specifier = .ok r) :
    fs'.resolve vendorDirs importer' specifier = .ok (r.relocate (rebase top top')) ∧
      ∀ target, r = .file target → top.IsBelow target.path := by
  -- Either way a file is found that has plain names.
  have hfile {names : List String} (hnames : ArePlain names)
      (heq : Resolution.file (.ofPath (top.below names)) = r) :
      Except.ok (.file (.ofPath (top'.below names)))
          = (Except.ok (r.relocate (rebase top top')) : Except BuildError Resolution) ∧
        ∀ target, r = .file target → top.IsBelow target.path := by
    subst heq
    refine ⟨?_, fun target htarget => ?_⟩
    · rw [ModuleId.ofPath_below top top' hnames]
      rfl
    · rw [← Resolution.file.inj htarget]
      exact ModuleId.isBelow_ofPath hnames
  rw [← hcandidate] at hlocal
  rw [← hcandidate'] at hlocal'
  rw [resolve_of_relative hrelative hlocal, hcandidate] at hr
  rw [resolve_of_relative hrelative hlocal', hcandidate', isModuleFile_below htop htop' hc]
  by_cases hmodule : (top.below c).isModuleFile = true
  · rw [if_pos hmodule] at hr ⊢
    exact hfile hc (Except.ok.inj hr)
  · rw [if_neg hmodule] at hr ⊢
    obtain ⟨found, hplain, hfind, hfind'⟩ := h.exists_find?_probes htop htop' hc
    rw [hfind] at hr
    rw [hfind']
    cases found with
    | none => cases hr
    | some names =>
      rw [Option.map_some, Option.elim_some] at hr ⊢
      exact hfile (hplain names rfl) (Except.ok.inj hr)

/-- **A specifier that stays inside leads to the same names on both disks.** -/
theorem resolve_eq {vendorDirs : List String} {r : Resolution} (hnames : ArePlain (a ++ [name]))
    (hstay : isRelative specifier = true → StaysInside top (top.below (a ++ [name])) specifier)
    (hstay' : isRelative specifier = true → StaysInside top' (top'.below (a ++ [name])) specifier)
    (hr : fs.resolve vendorDirs (top.below (a ++ [name])) specifier = .ok r) :
    fs'.resolve vendorDirs (top'.below (a ++ [name])) specifier
        = .ok (r.relocate (rebase top top')) ∧
      ∀ target, r = .file target → top.IsBelow target.path := by
  by_cases hrelative : isRelative specifier = true
  · obtain ⟨c, hc, hlanding⟩ := exists_landing hnames specifier
    have hcandidate := hlanding top htop.absolute (hstay hrelative)
    have hcandidate' := hlanding top' htop'.absolute (hstay' hrelative)
    have hvendored : isVendored (top'.below (a ++ [name])) (top'.below c) vendorDirs
        = isVendored (top.below (a ++ [name])) (top.below c) vendorDirs := by
      rw [isVendored_below htop.absolute hnames hc, isVendored_below htop'.absolute hnames hc]
    by_cases hlocal : isVendored (top.below (a ++ [name])) (top.below c) vendorDirs = false
    · exact h.resolve_eq_of_landing htop htop' hc hrelative hcandidate hcandidate' hlocal
        (hvendored.trans hlocal) hr
    · rw [FileSystem.resolve_eq, hcandidate, if_neg fun hboth => hlocal hboth.2] at hr
      rw [FileSystem.resolve_eq, hcandidate', hvendored, if_neg fun hboth => hlocal hboth.2]
      obtain rfl := Except.ok.inj hr
      exact ⟨rfl, fun _ htarget => by cases htarget⟩
  · rw [FileSystem.resolve_eq, if_neg fun hboth => hrelative hboth.1] at hr ⊢
    obtain rfl := Except.ok.inj hr
    exact ⟨rfl, fun _ htarget => by cases htarget⟩

/-! ## Builds -/

variable (hstay : fs.SpecifiersStay config.maxFileSize top)
  (hstay' : fs'.SpecifiersStay config.maxFileSize top')
include hstay hstay'

/-- **What a module says is carried along**, and it imports nothing from outside of the directory. -/
theorem analyze_eq {leaf : Leaf} (hnames : ArePlain names)
    (hleaf : (fs.analyze config ⟨top.below names⟩).leaf = .ok leaf) :
    (fs'.analyze config ⟨top'.below names⟩).leaf = .ok (leaf.relocate (rebase top top')) ∧
      ∀ t ∈ leaf.imports.keys, top.IsBelow t.path := by
  obtain ⟨contents, found, hread, hof, _, hleafEq⟩ := eq_of_analyze hleaf
  have hread' := h.readStructure_eq htop htop' hnames hread
  -- The directory itself is no module, so that the module has a name behind it.
  obtain ⟨a, name, rfl⟩ : ∃ a name, names = a ++ [name] := by
    refine (List.eq_nil_or_concat' names).resolve_left ?_
    rintro rfl
    have hmodule := isModuleFile_of_analyze hleaf
    rw [below_nil htop.clean] at hmodule
    exact Bool.false_ne_true (htop.not_module.symm.trans hmodule)
  have hresolve (s : ImportStatement) (hs : s ∈ contents.imports) (r : Resolution)
      (hr : fs.resolve config.vendorDirs (top.below (a ++ [name])) s.source = .ok r) :=
    h.resolve_eq htop htop' hnames (hstay _ hnames _ _ hread s hs)
      (hstay' _ hnames _ _ hread' s hs) hr
  have hof' := Targets.of_relocate (fun s hs r hr => (hresolve s hs r hr).1) hof
  have hfound : ∀ s ∈ found, top.IsBelow s.1.path := fun s hs => by
    have hs' : (s.1, s.2) ∈ (Targets.of (fs.resolve config.vendorDirs (top.below (a ++ [name])))
        contents.imports).found := by rwa [hof]
    obtain ⟨hmem, hr⟩ := Targets.resolve_of_mem_found hs'
    exact (hresolve s.2 hmem _ hr).2 s.1 rfl
  have hinj {x y : ModuleId} (hx : top.IsBelow x.path) (hy : top.IsBelow y.path)
      (heq : x.relocate (rebase top top') = y.relocate (rebase top top')) : x = y :=
    congrArg ModuleId.mk (rebase_inj hx hy (ModuleId.mk.inj heq))
  have hrecords := importRecords_relocate hinj hfound
  constructor
  · rw [analyze, hread']
    simp only [hof', hrecords]
    rw [hleafEq, Leaf.relocate, ModuleId.relocate, rebase_below top top' hnames]
  · intro t ht
    rw [hleafEq] at ht
    obtain ⟨s, hs, rfl⟩ := List.mem_map.mp (mem_keys_importRecords.mp ht)
    exact hfound s hs

/-- **The builds below the one directory are carried into those below the other.** -/
theorem carriesTo : fs.CarriesTo fs' config top.IsBelow (rebase top top') where
  injective := rebase_inj
  clean := by
    rintro p ⟨names, hnames, rfl⟩
    rw [rebase_below top top' hnames]
    exact ⟨clean_below hnames, clean_below hnames⟩
  isModuleFile := by
    rintro p ⟨names, hnames, rfl⟩
    rw [rebase_below top top' hnames]
    exact isModuleFile_below htop htop' hnames
  isPresent := by
    rintro p ⟨names, hnames, rfl⟩
    rw [rebase_below top top' hnames]
    exact h.isPresent hnames
  checkDir := by
    rintro p ⟨names, hnames, rfl⟩ hdir
    rw [rebase_below top top' hnames]
    exact h.checkDir_eq hnames hdir
  analyze := by
    rintro ⟨_⟩ leaf ⟨names, hnames, rfl⟩ hleaf
    rw [ModuleId.relocate, rebase_below top top' hnames]
    exact h.analyze_eq htop htop' hstay hstay' hnames hleaf
  listing := by
    rintro p l ⟨names, hnames, rfl⟩ hl
    rw [rebase_below top top' hnames]
    exact h.listing_eq htop htop' hnames hl

end AlikeBelow

end Alike

end FileSystem

end ImportAtlas
