import ImportAtlas.FileSystem.Memory
import ImportAtlas.Walk

/-!
# Proofs/Survey — a survey finds every directory and every module once

`FileSystem.DirAt` says what it means for a directory to lie below another one: each lists the
next.  A survey that succeeds is a chart of the disk (`FileSystem.Charts`): its directories are
those that are reached without a vendor directory (`Charts.mem_dirs`), its modules are the module
files directly in them (`Charts.mem_allFiles`), and none comes twice, since the steps of a path
tell all names on the way to it.
-/

namespace ImportAtlas

variable {fs : FileSystem} {config : Config} {dir q : Path} {l : Listing} {name : String}
  {names : List String}

/-! ## What lies in a directory, and below it -/

namespace FileSystem

/-- A directory is listed in another one under the given name. -/
def HasDir (fs : FileSystem) (dir : Path) (name : String) : Prop :=
  ∃ listed m, fs.names dir = .ok listed ∧ name ∈ listed ∧
    fs.metadata (dir.child name) = .ok m ∧ m.isDir = true

/-- A module file is listed in a directory under the given name: a regular file with an extension of
the table. -/
def HasModule (fs : FileSystem) (dir : Path) (name : String) : Prop :=
  ∃ listed m, fs.names dir = .ok listed ∧ name ∈ listed ∧
    fs.metadata (dir.child name) = .ok m ∧ m.isDir = false ∧ m.isFile = true ∧
    (dir.child name).isModuleFile = true

/-- **A directory at or below another one**, and the names that lead to it from there. -/
inductive DirAt (fs : FileSystem) : Path → List String → Path → Prop
  | here {dir : Path} : DirAt fs dir [] dir
  | inside {dir q : Path} {name : String} {names : List String} (hdir : fs.HasDir dir name)
      (h : DirAt fs (dir.child name) names q) : DirAt fs dir (name :: names) q

/-- The directories that a walk enters: no name on the way to them is that of a vendor directory. -/
def IsWalked (fs : FileSystem) (config : Config) (top q : Path) : Prop :=
  ∃ names, fs.DirAt top names q ∧ ∀ name ∈ names, config.isVendorDir name = false

/-- The modules that a walk analyses: the module files directly in a directory that it enters. -/
def IsWalkedModule (fs : FileSystem) (config : Config) (top : Path) (id : ModuleId) : Prop :=
  ∃ dir name, fs.IsWalked config top dir ∧ fs.HasModule dir name ∧ id = .ofPath (dir.child name)

theorem HasDir.isPlainName (h : fs.HasDir dir name) : Path.isPlainName name = true := by
  obtain ⟨listed, _, hlisted, hname, _⟩ := h
  exact fs.names_plain dir listed hlisted name hname

theorem HasModule.isPlainName (h : fs.HasModule dir name) : Path.isPlainName name = true := by
  obtain ⟨listed, _, hlisted, hname, _⟩ := h
  exact fs.names_plain dir listed hlisted name hname

/-- **The steps of a path tell the names on the way to it.** -/
theorem DirAt.steps_eq (h : fs.DirAt dir names q) :
    q.route.steps = dir.route.steps ++ names := by
  induction h with
  | here => rw [List.append_nil]
  | inside hdir _ ih =>
    rw [ih, Path.steps_child hdir.isPlainName, List.append_assoc]
    rfl

/-- The directories that are entered below a directory are entered below one that it lists. -/
theorem isWalked_iff : fs.IsWalked config dir q ↔ q = dir ∨
    ∃ name, (fs.HasDir dir name ∧ config.isVendorDir name = false) ∧
      fs.IsWalked config (dir.child name) q := by
  constructor
  · rintro ⟨names, h, hvendor⟩
    cases h with
    | here => exact Or.inl rfl
    | inside hdir h =>
      obtain ⟨hname, hnames⟩ := List.forall_mem_cons.mp hvendor
      exact Or.inr ⟨_, ⟨hdir, hname⟩, _, h, hnames⟩
  · rintro (rfl | ⟨name, ⟨hdir, hname⟩, names, h, hnames⟩)
    · exact ⟨[], .here, by simp⟩
    · exact ⟨name :: names, .inside hdir h, List.forall_mem_cons.mpr ⟨hname, hnames⟩⟩

end FileSystem

namespace Memory

variable {m : Memory}

/-- **What a directory lists on a disk in memory** are the entries directly in it. -/
theorem exists_listed_iff (hdir : dir.clean = dir) (habsolute : dir.isAbsolute = true)
    (p : Metadata → Prop) :
    (∃ listed data, m.toFileSystem.names dir = .ok listed ∧ name ∈ listed ∧
      m.toFileSystem.metadata (dir.child name) = .ok data ∧ p data) ↔
    Path.isPlainName name = true ∧ (∃ e, m.entries.get? dir = some e ∧ e.readFault = none) ∧
      ∃ e, m.entries.get? (dir.child name) = some e ∧ e.metadataFault = none ∧ p e.metadata := by
  have hfind (q : Path) (hq : q.clean = q) : m.find? q = m.entries.get? q := by rw [find?, hq]
  have hchild (h : Path.isPlainName name = true) := hfind _ (Path.clean_child hdir habsolute h)
  simp only [toFileSystem, names_eq_ok_iff, metadata_eq_ok_iff, hfind dir hdir, hdir]
  constructor
  · rintro ⟨_, _, ⟨hlisted, rfl⟩, hname, ⟨e, he, hfault, rfl⟩, hp⟩
    obtain ⟨hplain, _⟩ := mem_namesIn.mp hname
    rw [hchild hplain] at he
    exact ⟨hplain, hlisted, e, he, hfault, hp⟩
  · rintro ⟨hplain, hlisted, e, he, hfault, hp⟩
    have hkey : dir.child name ∈ m.entries.keys := OrderedMap.mem_keys_of_get? he
    rw [← hchild hplain] at he
    exact ⟨_, _, ⟨hlisted, rfl⟩, mem_namesIn.mpr ⟨hplain, hkey⟩, ⟨e, he, hfault, rfl⟩, hp⟩

/-- A directory is listed in another one if it is an entry there. -/
theorem hasDir_iff (hdir : dir.clean = dir) (habsolute : dir.isAbsolute = true) :
    m.toFileSystem.HasDir dir name ↔
      Path.isPlainName name = true ∧ (∃ e, m.entries.get? dir = some e ∧ e.readFault = none) ∧
        ∃ e, m.entries.get? (dir.child name) = some e ∧ e.metadataFault = none ∧ e.isDir = true :=
  exists_listed_iff hdir habsolute fun data => data.isDir = true

/-- A module file is listed in a directory if it is an entry there, with an extension of the
table. -/
theorem hasModule_iff (hdir : dir.clean = dir) (habsolute : dir.isAbsolute = true) :
    m.toFileSystem.HasModule dir name ↔
      Path.isPlainName name = true ∧ (∃ e, m.entries.get? dir = some e ∧ e.readFault = none) ∧
        ∃ e, m.entries.get? (dir.child name) = some e ∧ e.metadataFault = none ∧
          e.isDir = false ∧ e.metadata.isFile = true ∧ (dir.child name).isModuleFile = true :=
  exists_listed_iff hdir habsolute fun data =>
    data.isDir = false ∧ data.isFile = true ∧ (dir.child name).isModuleFile = true

end Memory

/-! ## Listings -/

namespace Listing

theorem sortNames_perm (names : List String) : (sortNames names).Perm names :=
  List.mergeSort_perm ..

theorem pairwise_le_sortNames (names : List String) : (sortNames names).Pairwise (· ≤ ·) := by
  have h : (sortNames names).Pairwise fun a b => decide (a ≤ b) = true := by
    refine List.pairwise_mergeSort (fun a b c hab hbc => ?_) (fun a b => ?_) names
    · exact decide_eq_true (String.le_trans (of_decide_eq_true hab) (of_decide_eq_true hbc))
    · rw [Bool.or_eq_true, decide_eq_true_iff, decide_eq_true_iff]
      exact String.le_total a b
  exact h.imp of_decide_eq_true

/-- Names that differ are strictly ascending once they are sorted. -/
theorem pairwise_lt_sortNames (h : names.Nodup) : (sortNames names).Pairwise (· < ·) := by
  have hne : (sortNames names).Pairwise (· ≠ ·) := (sortNames_perm names).nodup_iff.mpr h
  refine ((pairwise_le_sortNames names).and hne).imp fun ⟨hle, hne⟩ => ?_
  exact Decidable.byContradiction fun hlt => hne (String.le_antisymm hle (String.not_lt.mp hlt))

/-- **Sorting forgets the order in which names are listed.** -/
theorem sortNames_eq_of_perm {names' : List String} (h : names.Perm names') :
    sortNames names = sortNames names' :=
  List.Perm.eq_of_pairwise (fun _ _ _ _ => String.le_antisymm) (pairwise_le_sortNames names)
    (pairwise_le_sortNames names')
    ((sortNames_perm names).trans (h.trans (sortNames_perm names').symm))

theorem filterMap_ite_eq_map {α β γ : Type} (p : α × β → Bool) (g : α → γ) (es : List (α × β)) :
    es.filterMap (fun e => if p e then some (g e.1) else none)
      = ((es.filter p).map Prod.fst).map g := by
  induction es with
  | nil => rfl
  | cons e es ih => cases hp : p e <;> simp [hp, ih]

end Listing

namespace FileSystem

/-- Names are gone through in order, however they are listed. -/
theorem listing_of_perm {listed : List String} (hnames : fs.names dir = .ok listed)
    (hperm : listed.Perm names) (hsorted : names.Pairwise fun a b => decide (a ≤ b) = true) :
    fs.listing config dir = (fs.entriesOf dir names).map (Listing.ofEntries config dir) := by
  rw [listing, hnames]
  simp only [Listing.sortNames_eq_of_perm hperm]
  rw [Listing.sortNames, List.mergeSort_of_pairwise hsorted]

/-- Names that are listed in order are gone through as they stand. -/
theorem listing_of_sorted (hnames : fs.names dir = .ok names)
    (hsorted : names.Pairwise fun a b => decide (a ≤ b) = true) :
    fs.listing config dir = (fs.entriesOf dir names).map (Listing.ofEntries config dir) :=
  listing_of_perm hnames (List.Perm.refl names) hsorted

theorem metadata_of_mem_entriesOf {es : List (String × Metadata)} {e : String × Metadata}
    (h : fs.entriesOf dir names = .ok es) (he : e ∈ es) :
    fs.metadata (dir.child e.1) = .ok e.2 := by
  induction names generalizing es with
  | nil =>
    obtain rfl := Except.ok.inj h
    simp at he
  | cons name rest ih =>
    unfold entriesOf at h
    split at h
    · simp at h
    · rename_i m hm
      cases hrest : fs.entriesOf dir rest with
      | error e => simp [hrest, Except.map] at h
      | ok es' =>
        rw [hrest] at h
        obtain rfl := Except.ok.inj h
        rcases List.mem_cons.mp he with rfl | he
        · exact hm
        · exact ih hrest he

/-- The names of some of the entries of a directory are in order, and they are those whose metadata
say what is asked for. -/
theorem names_of_entriesOf {listed : List String} {es : List (String × Metadata)}
    (hlisted : fs.names dir = .ok listed)
    (hes : fs.entriesOf dir (Listing.sortNames listed) = .ok es) (p : String × Metadata → Bool) :
    ((es.filter p).map Prod.fst).Pairwise (· < ·) ∧
      ∀ name, name ∈ (es.filter p).map Prod.fst ↔
        ∃ m, name ∈ listed ∧ fs.metadata (dir.child name) = .ok m ∧ p (name, m) = true := by
  have hfst : es.map Prod.fst = Listing.sortNames listed := map_fst_entriesOf hes
  have hlisted' (name : String) : name ∈ listed ↔ name ∈ es.map Prod.fst := by
    rw [hfst, (Listing.sortNames_perm listed).mem_iff]
  constructor
  · refine List.Pairwise.sublist (List.filter_sublist.map Prod.fst) ?_
    rw [hfst]
    exact Listing.pairwise_lt_sortNames (fs.names_nodup dir listed hlisted)
  · intro name
    rw [hlisted', List.mem_map]
    constructor
    · rintro ⟨e, he, rfl⟩
      obtain ⟨he, hp⟩ := List.mem_filter.mp he
      exact ⟨e.2, List.mem_map_of_mem he, metadata_of_mem_entriesOf hes he, hp⟩
    · rintro ⟨m, hname, hm, hp⟩
      obtain ⟨e, he, rfl⟩ := List.mem_map.mp hname
      obtain rfl : e.2 = m := Except.ok.inj ((metadata_of_mem_entriesOf hes he).symm.trans hm)
      exact ⟨e, List.mem_filter.mpr ⟨he, hp⟩, rfl⟩

/-- **What a listing says**: the directories to enter and the module files, each in the order of
their names. -/
theorem names_of_listing_eq (h : fs.listing config dir = .ok l) :
    (∃ names : List String, names.Pairwise (· < ·) ∧ l.subdirs = names.map dir.child ∧
      ∀ name, name ∈ names ↔ fs.HasDir dir name ∧ config.isVendorDir name = false) ∧
    ∃ names : List String, names.Pairwise (· < ·) ∧
      l.files = names.map (fun name => .ofPath (dir.child name)) ∧
      ∀ name, name ∈ names ↔ fs.HasModule dir name := by
  unfold listing at h
  split at h
  · simp at h
  · rename_i listed hlisted
    cases hes : fs.entriesOf dir (Listing.sortNames listed) with
    | error e => simp [hes, Except.map] at h
    | ok es =>
      rw [hes] at h
      obtain rfl := Except.ok.inj h
      constructor
      · obtain ⟨hsorted, hmem⟩ := names_of_entriesOf hlisted hes fun e =>
          e.2.isDir && !config.isVendorDir e.1
        refine ⟨_, hsorted, Listing.filterMap_ite_eq_map .., fun name => (hmem name).trans ?_⟩
        simp only [HasDir, hlisted, Except.ok.injEq, Bool.and_eq_true, Bool.not_eq_true']
        constructor
        · rintro ⟨m, hname, hm, hdir, hvendor⟩
          exact ⟨⟨listed, m, rfl, hname, hm, hdir⟩, hvendor⟩
        · rintro ⟨⟨_, m, rfl, hname, hm, hdir⟩, hvendor⟩
          exact ⟨m, hname, hm, hdir, hvendor⟩
      · obtain ⟨hsorted, hmem⟩ := names_of_entriesOf hlisted hes fun e =>
          !e.2.isDir && e.2.isFile && (dir.child e.1).isModuleFile
        refine ⟨_, hsorted, Listing.filterMap_ite_eq_map
          (fun e : String × Metadata => !e.2.isDir && e.2.isFile && (dir.child e.1).isModuleFile)
          (fun name => ModuleId.ofPath (dir.child name)) es, fun name => (hmem name).trans ?_⟩
        simp only [HasModule, hlisted, Except.ok.injEq, Bool.and_eq_true, Bool.not_eq_true',
          and_assoc]
        constructor
        · rintro ⟨m, hname, hm⟩
          exact ⟨listed, m, rfl, hname, hm⟩
        · rintro ⟨_, m, rfl, hname, hm⟩
          exact ⟨m, hname, hm⟩

end FileSystem

/-! ## Charts of the disk -/

namespace Layout

/-- The directory itself. -/
def path : Layout → Path
  | mk path _ _ => path

/-- The directory and all directories below it. -/
def dirs : Layout → List Path
  | mk path subdirs _ => path :: subdirs.flatMap dirs

/-- The modules in the directory and below it, in the order of their analysis. -/
def allFiles : Layout → List ModuleId
  | mk _ subdirs files => subdirs.flatMap allFiles ++ files

end Layout

namespace FileSystem

/-- **A layout that agrees with the disk**: each directory of it has what its listing says. -/
inductive Charts (fs : FileSystem) (config : Config) : Layout → Prop
  | mk {path : Path} {subdirs : List Layout} {files : List ModuleId}
      (hlisting : fs.listing config path = .ok ⟨subdirs.map Layout.path, files⟩)
      (hsubdirs : ∀ sub ∈ subdirs, Charts fs config sub) : Charts fs config (.mk path subdirs files)

theorem survey_of_error {e : FsError} (h : fs.listing config dir = .error e) :
    fs.survey config dir = ⟨[], .error e⟩ := by
  rw [survey]
  split
  · rename_i e' h'
    obtain rfl : e = e' := Except.error.inj (h.symm.trans h')
    rfl
  · rename_i h'
    cases h.symm.trans h'

theorem survey_of_listing (h : fs.listing config dir = .ok l) :
    fs.survey config dir = .ofListing dir l (l.subdirs.map (fs.survey config)) := by
  rw [survey]
  split
  · rename_i h'
    cases h.symm.trans h'
  · rename_i l' h'
    obtain rfl : l = l' := Except.ok.inj (h.symm.trans h')
    rw [List.attach_map_val]

/-- Surveys of several directories that succeed are charts of them. -/
theorem charts_of_sequence {ps : List Path} {files : List ModuleId} {layouts : List Layout}
    (hps : ∀ p ∈ ps, ∀ layout, (fs.survey config p).layout = .ok layout →
      layout.path = p ∧ fs.Charts config layout ∧ (fs.survey config p).files = layout.allFiles)
    (h : Survey.sequence (ps.map (fs.survey config)) = (files, .ok layouts)) :
    layouts.map Layout.path = ps ∧ (∀ sub ∈ layouts, fs.Charts config sub) ∧
      files = layouts.flatMap Layout.allFiles := by
  induction ps generalizing files layouts with
  | nil =>
    obtain ⟨rfl, hlayouts⟩ := Prod.mk.inj h
    obtain rfl := Except.ok.inj hlayouts
    simp
  | cons p ps ih =>
    obtain ⟨hp, hps⟩ := List.forall_mem_cons.mp hps
    rw [List.map_cons, Survey.sequence] at h
    split at h
    · nomatch congrArg Prod.snd h
    · rename_i layout hlayout
      obtain ⟨hpath, hchart, hfiles⟩ := hp layout hlayout
      cases hrest : Survey.sequence (ps.map (fs.survey config)) with
      | mk later result =>
        simp only [hrest] at h
        cases result with
        | error e => nomatch congrArg Prod.snd h
        | ok more =>
          obtain ⟨hpaths, hcharts, hlater⟩ := ih hps hrest
          obtain ⟨rfl, hlayouts⟩ := Prod.mk.inj h
          obtain rfl := Except.ok.inj hlayouts
          exact ⟨by rw [List.map_cons, hpath, hpaths], List.forall_mem_cons.mpr ⟨hchart, hcharts⟩,
            by rw [List.flatMap_cons, hfiles, hlater]⟩

/-- **A survey that succeeds is a chart**, and it finds the modules in the order of the chart. -/
theorem charts_of_survey {layout : Layout} (h : (fs.survey config dir).layout = .ok layout) :
    layout.path = dir ∧ fs.Charts config layout ∧
      (fs.survey config dir).files = layout.allFiles := by
  induction dir using FileSystem.survey.induct fs config generalizing layout with
  | case1 dir e hlisting =>
    rw [survey_of_error hlisting] at h
    nomatch h
  | case2 dir l hlisting ih =>
    rw [survey_of_listing hlisting, Survey.ofListing] at h ⊢
    cases hsequence : Survey.sequence (l.subdirs.map (fs.survey config)) with
    | mk files result =>
      cases result with
      | error e =>
        simp only [hsequence] at h
        nomatch h
      | ok layouts =>
        simp only [hsequence] at h ⊢
        obtain rfl := Except.ok.inj h
        obtain ⟨hpaths, hcharts, hfiles⟩ :=
          charts_of_sequence (fun p hp layout hlayout => ih ⟨p, hp⟩ hlayout) hsequence
        refine ⟨rfl, .mk ?_ hcharts, ?_⟩
        · rw [hpaths, hlisting]
        · rw [hfiles, Layout.allFiles]

theorem sequence_charts (layouts : List Layout) :
    Survey.sequence (layouts.map fun layout => ⟨layout.allFiles, .ok layout⟩)
      = (layouts.flatMap Layout.allFiles, .ok layouts) := by
  induction layouts with
  | nil => rfl
  | cons layout layouts ih =>
    rw [List.map_cons, Survey.sequence, ih]
    rfl

/-- **What has a chart is surveyed with success.** -/
theorem survey_of_charts {layout : Layout} (h : fs.Charts config layout) :
    fs.survey config layout.path = ⟨layout.allFiles, .ok layout⟩ := by
  induction h with
  | @mk path subdirs files hlisting _ ih =>
    have hbelow : (subdirs.map Layout.path).map (fs.survey config)
        = subdirs.map fun layout => ⟨layout.allFiles, .ok layout⟩ := by
      rw [List.map_map]
      exact List.map_congr_left ih
    rw [Layout.path, survey_of_listing hlisting, hbelow, Survey.ofListing, sequence_charts]
    simp only [Layout.allFiles]

variable {layout : Layout} {id : ModuleId}

section Subdirs

variable {path : Path} {subdirs : List Layout} {files : List ModuleId}
  (hlisting : fs.listing config path = .ok ⟨subdirs.map Layout.path, files⟩)
include hlisting

theorem name_of_mem_subdirs {sub : Layout} (hsub : sub ∈ subdirs) :
    ∃ name, (fs.HasDir path name ∧ config.isVendorDir name = false) ∧
      sub.path = path.child name := by
  obtain ⟨⟨names, _, hpaths, hnames⟩, _⟩ := names_of_listing_eq hlisting
  have hmem : sub.path ∈ names.map path.child := by
    rw [← hpaths]
    exact List.mem_map_of_mem hsub
  obtain ⟨name, hname, hpath⟩ := List.mem_map.mp hmem
  exact ⟨name, (hnames name).mp hname, hpath.symm⟩

theorem exists_mem_subdirs (hname : fs.HasDir path name ∧ config.isVendorDir name = false) :
    ∃ sub ∈ subdirs, sub.path = path.child name := by
  obtain ⟨⟨names, _, hpaths, hnames⟩, _⟩ := names_of_listing_eq hlisting
  have hmem : path.child name ∈ subdirs.map Layout.path := by
    rw [show subdirs.map Layout.path = names.map path.child from hpaths]
    exact List.mem_map_of_mem ((hnames name).mpr hname)
  exact List.mem_map.mp hmem

theorem mem_files_iff : id ∈ files ↔ ∃ name, fs.HasModule path name ∧
    id = .ofPath (path.child name) := by
  obtain ⟨_, names, _, hfiles, hnames⟩ := names_of_listing_eq hlisting
  rw [show files = names.map fun name => .ofPath (path.child name) from hfiles, List.mem_map]
  constructor
  · rintro ⟨name, hname, rfl⟩
    exact ⟨name, (hnames name).mp hname, rfl⟩
  · rintro ⟨name, hname, rfl⟩
    exact ⟨name, (hnames name).mpr hname, rfl⟩

end Subdirs

/-- **A chart has the directories that a walk enters.** -/
theorem Charts.mem_dirs (h : fs.Charts config layout) :
    q ∈ layout.dirs ↔ fs.IsWalked config layout.path q := by
  induction h with
  | @mk path subdirs files hlisting _ ih =>
    rw [Layout.dirs, List.mem_cons, List.mem_flatMap, isWalked_iff]
    refine or_congr_right ⟨?_, ?_⟩
    · rintro ⟨sub, hsub, hq⟩
      obtain ⟨name, hname, hpath⟩ := name_of_mem_subdirs hlisting hsub
      exact ⟨name, hname, by rwa [ih sub hsub, hpath] at hq⟩
    · rintro ⟨name, hname, hq⟩
      obtain ⟨sub, hsub, hpath⟩ := exists_mem_subdirs hlisting hname
      exact ⟨sub, hsub, by rwa [ih sub hsub, hpath]⟩

/-- **A chart has the modules that a walk analyses.** -/
theorem Charts.mem_allFiles (h : fs.Charts config layout) :
    id ∈ layout.allFiles ↔ fs.IsWalkedModule config layout.path id := by
  induction h with
  | @mk path subdirs files hlisting _ ih =>
    rw [Layout.allFiles, List.mem_append, List.mem_flatMap, mem_files_iff hlisting]
    constructor
    · rintro (⟨sub, hsub, hid⟩ | ⟨name, hmodule, rfl⟩)
      · obtain ⟨dir, name, hdir, hmodule, rfl⟩ := (ih sub hsub).mp hid
        obtain ⟨subName, hsubName, hpath⟩ := name_of_mem_subdirs hlisting hsub
        rw [hpath] at hdir
        exact ⟨dir, name, isWalked_iff.mpr (Or.inr ⟨subName, hsubName, hdir⟩), hmodule, rfl⟩
      · exact ⟨path, name, isWalked_iff.mpr (Or.inl rfl), hmodule, rfl⟩
    · rintro ⟨dir, name, hdir, hmodule, rfl⟩
      rcases isWalked_iff.mp hdir with rfl | ⟨subName, hsubName, hdir⟩
      · exact Or.inr ⟨name, hmodule, rfl⟩
      · obtain ⟨sub, hsub, hpath⟩ := exists_mem_subdirs hlisting hsubName
        rw [Layout.path, ← hpath] at hdir
        exact Or.inl ⟨sub, hsub, (ih sub hsub).mpr ⟨dir, name, hdir, hmodule, rfl⟩⟩

/-! ## Nothing is found twice -/

theorem IsWalked.prefix_steps (h : fs.IsWalked config dir q) :
    dir.route.steps <+: q.route.steps := by
  obtain ⟨names, h, _⟩ := h
  exact ⟨names, h.steps_eq.symm⟩

theorem HasModule.steps_eq (h : fs.HasModule dir name) :
    (ModuleId.ofPath (dir.child name)).path.route.steps = dir.route.steps ++ [name] := by
  change (dir.child name).clean.route.steps = _
  rw [Path.route_clean, Path.steps_child h.isPlainName]

/-- A module that is analysed lies below the directory where the walk starts. -/
theorem IsWalkedModule.prefix_steps (h : fs.IsWalkedModule config dir id) :
    dir.route.steps <+: id.path.route.steps ∧
      dir.route.steps.length < id.path.route.steps.length := by
  obtain ⟨q, name, hq, hmodule, rfl⟩ := h
  rw [hmodule.steps_eq]
  refine ⟨hq.prefix_steps.trans (List.prefix_append ..), ?_⟩
  have hlength := hq.prefix_steps.length_le
  rw [List.length_append, List.length_singleton]
  omega

section Distinct

variable {path : Path} {subdirs : List Layout} {files : List ModuleId}
  (hlisting : fs.listing config path = .ok ⟨subdirs.map Layout.path, files⟩)
include hlisting

theorem steps_of_mem_subdirs {sub : Layout} (hsub : sub ∈ subdirs) :
    ∃ name, sub.path.route.steps = path.route.steps ++ [name] := by
  obtain ⟨name, ⟨hdir, _⟩, hpath⟩ := name_of_mem_subdirs hlisting hsub
  exact ⟨name, by rw [hpath, Path.steps_child hdir.isPlainName]⟩

/-- No place is below two of the directories that one directory lists. -/
theorem pairwise_subdirs : subdirs.Pairwise fun a b =>
    ¬ ∃ steps, a.path.route.steps <+: steps ∧ b.path.route.steps <+: steps := by
  obtain ⟨⟨names, hsorted, hpaths, hnames⟩, _⟩ := names_of_listing_eq hlisting
  have hchild (name : String) (hname : name ∈ names) :
      (path.child name).route.steps = path.route.steps ++ [name] := by
    rw [Path.steps_child ((hnames name).mp hname).1.isPlainName]
  have h : (names.map path.child).Pairwise fun a b =>
      ¬ ∃ steps, a.route.steps <+: steps ∧ b.route.steps <+: steps := by
    rw [List.pairwise_map]
    refine hsorted.imp_of_mem fun {a b} ha hb hlt => ?_
    rintro ⟨steps, hsa, hsb⟩
    rw [hchild a ha] at hsa
    rw [hchild b hb] at hsb
    have heq := (List.prefix_of_prefix_length_le hsa hsb (by simp)).eq_of_length (by simp)
    exact String.ne_of_lt hlt (by simpa using heq)
  rw [← hpaths] at h
  exact List.pairwise_map.mp h

/-- What is found below the directories that one directory lists differs, if its steps tell below
which of them it was found. -/
theorem nodup_flatMap_subdirs {β : Type} (found : Layout → List β) (steps : β → List String)
    (hsteps : ∀ sub ∈ subdirs, ∀ b ∈ found sub, sub.path.route.steps <+: steps b)
    (hfound : ∀ sub ∈ subdirs, (found sub).Nodup) : (subdirs.flatMap found).Nodup := by
  rw [List.nodup_iff_pairwise_ne, List.pairwise_flatMap]
  refine ⟨hfound, (pairwise_subdirs hlisting).imp_of_mem fun {a b} ha hb hne => ?_⟩
  rintro x hx y hy rfl
  exact hne ⟨steps x, hsteps a ha x hx, hsteps b hb x hy⟩

theorem nodup_files : files.Nodup := by
  obtain ⟨_, names, hsorted, hfiles, hnames⟩ := names_of_listing_eq hlisting
  rw [show files = names.map fun name => .ofPath (path.child name) from hfiles,
    List.nodup_iff_pairwise_ne, List.pairwise_map]
  refine hsorted.imp_of_mem fun {a b} ha hb hlt heq => String.ne_of_lt hlt ?_
  have hsteps := ((hnames a).mp ha).steps_eq
  rw [heq, ((hnames b).mp hb).steps_eq] at hsteps
  simpa using hsteps.symm

end Distinct

/-- **No directory is charted twice.** -/
theorem Charts.nodup_dirs (h : fs.Charts config layout) : layout.dirs.Nodup := by
  induction h with
  | @mk path subdirs files hlisting hcharts ih =>
    have hsteps : ∀ sub ∈ subdirs, ∀ q ∈ sub.dirs, sub.path.route.steps <+: q.route.steps :=
      fun sub hsub q hq => ((hcharts sub hsub).mem_dirs.mp hq).prefix_steps
    rw [Layout.dirs, List.nodup_cons]
    refine ⟨fun hmem => ?_, nodup_flatMap_subdirs hlisting _ (·.route.steps) hsteps ih⟩
    obtain ⟨sub, hsub, hpath⟩ := List.mem_flatMap.mp hmem
    obtain ⟨name, hname⟩ := steps_of_mem_subdirs hlisting hsub
    have hlength := (hsteps sub hsub path hpath).length_le
    rw [hname, List.length_append, List.length_singleton] at hlength
    omega

/-- **No module is charted twice.** -/
theorem Charts.nodup_allFiles (h : fs.Charts config layout) : layout.allFiles.Nodup := by
  induction h with
  | @mk path subdirs files hlisting hcharts ih =>
    have hbelow (sub : Layout) (hsub : sub ∈ subdirs) (id : ModuleId) (hid : id ∈ sub.allFiles) :=
      ((hcharts sub hsub).mem_allFiles.mp hid).prefix_steps
    rw [Layout.allFiles, List.nodup_append]
    refine ⟨nodup_flatMap_subdirs hlisting _ (·.path.route.steps)
      (fun sub hsub id hid => (hbelow sub hsub id hid).1) ih, nodup_files hlisting, ?_⟩
    rintro id hid _ hfile rfl
    obtain ⟨sub, hsub, hid⟩ := List.mem_flatMap.mp hid
    obtain ⟨subName, hsubName⟩ := steps_of_mem_subdirs hlisting hsub
    obtain ⟨name, hmodule, rfl⟩ := (mem_files_iff hlisting).mp hfile
    have hlength := (hbelow sub hsub _ hid).2
    rw [hmodule.steps_eq, hsubName, List.length_append, List.length_append] at hlength
    simp at hlength

end FileSystem

end ImportAtlas
