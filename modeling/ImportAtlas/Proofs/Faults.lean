import ImportAtlas.Proofs.Coincidence
import ImportAtlas.Proofs.Omission

/-!
# Proofs/Faults — what a build makes of metadata that cannot be had

A walk fails when the metadata of something that it lists cannot be had, and the size of a file is
checked again once its bytes are there.  The search for the file that an import leads to goes on
instead, as if nothing were there: it may end at another file (`Diverts`).  That is the only way in
which such a fault can change a build that still succeeds (`faults_divert_only`), and it takes a fault
of the file that is missed, or of the directory whose index file it is (`hides_of_diverts`).
-/

namespace ImportAtlas

/-- Where statements lead depends on their sources only. -/
theorem Targets.of_congr {resolve resolve' : String → Except BuildError Resolution}
    {statements : List ImportStatement}
    (h : ∀ s ∈ statements, resolve s.source = resolve' s.source) :
    Targets.of resolve statements = Targets.of resolve' statements := by
  induction statements with
  | nil => rfl
  | cons s rest ih =>
    obtain ⟨hs, hrest⟩ := List.forall_mem_cons.mp h
    rw [Targets.of, Targets.of, hs, ih hrest]

/-- What is found first among some is found first among fewer, if it is one of these. -/
theorem find?_eq_some_of_imp {α : Type} {p q : α → Bool} {l : List α} {a : α}
    (h : l.find? p = some a) (himp : ∀ x, q x = true → p x = true) (ha : q a = true) :
    l.find? q = some a := by
  rw [List.find?_eq_some_iff_append] at h ⊢
  obtain ⟨_, before, after, hl, hbefore⟩ := h
  refine ⟨ha, before, after, hl, fun x hx => ?_⟩
  have hp := hbefore x hx
  rw [Bool.not_eq_true'] at hp ⊢
  exact Bool.eq_false_iff.mpr fun hq => Bool.eq_false_iff.mp hp (himp x hq)

namespace FileSystem

variable {fs fs' : FileSystem} {config : Config} {p : Path} {m : Metadata} {id t : ModuleId}
  {leaf leaf' : Leaf} {vendorDirs : List String} {importer : Path} {specifier : String}

/-! ## Faults -/

/-- **A disk with faults**: it answers as the other one does, but for the metadata of some paths,
which cannot be had although something is there. -/
structure WithFaults (fs fs' : FileSystem) : Prop where
  contents : fs'.contents = fs.contents
  isPresent : fs'.isPresent = fs.isPresent
  names : fs'.names = fs.names
  workingDir : fs'.workingDir = fs.workingDir
  metadata : ∀ p, fs'.metadata p = fs.metadata p ∨
    fs.isPresent p = true ∧ ∃ e, fs'.metadata p = .error e

/-- There are metadata of the path, but on the other disk they cannot be had. -/
def Hides (fs fs' : FileSystem) (p : Path) : Prop :=
  (∃ m, fs.metadata p = .ok m) ∧ ∃ e, fs'.metadata p = .error e

/-- On the other disk the specifier leads to another file. -/
def Diverts (fs fs' : FileSystem) (vendorDirs : List String) (importer : Path)
    (specifier : String) : Prop :=
  ∃ t t', fs.resolve vendorDirs importer specifier = .ok (.file t) ∧
    fs'.resolve vendorDirs importer specifier = .ok (.file t') ∧ t' ≠ t

/-- No import of the module leads to another file on the other disk. -/
def KeepsTargets (fs fs' : FileSystem) (config : Config) (id : ModuleId) : Prop :=
  ∀ dialect contents, fs.readStructure config.maxFileSize id.path = .ok (dialect, contents) →
    ∀ s ∈ contents.imports, ¬ fs.Diverts fs' config.vendorDirs id.path s.source

theorem isFile_iff : fs.isFile p = true ↔
    fs.isPresent p = true ∧ ∃ m, fs.metadata p = .ok m ∧ m.isFile = true := by
  rw [isFile, Bool.and_eq_true]
  cases fs.metadata p <;> simp [Except.toOption]

theorem isDir_iff : fs.isDir p = true ↔
    fs.isPresent p = true ∧ ∃ m, fs.metadata p = .ok m ∧ m.isDir = true := by
  rw [isDir, Bool.and_eq_true]
  cases fs.metadata p <;> simp [Except.toOption]

/-- A relative specifier names a module file, or the first file among its probes. -/
theorem resolve_of_relative (hrelative : isRelative specifier = true)
    (hvendored : isVendored importer (candidatePath importer specifier) vendorDirs = false) :
    fs.resolve vendorDirs importer specifier =
      if (candidatePath importer specifier).isModuleFile then
        .ok (.file (.ofPath (candidatePath importer specifier)))
      else ((fs.probes (candidatePath importer specifier)).find? fs.isFile).elim
        (.error (.moduleNotFound (candidatePath importer specifier) specifier importer))
        fun found => .ok (.file (.ofPath found)) := by
  simp only [resolve, hrelative, hvendored, Bool.not_true, Bool.or_self, Bool.false_eq_true,
    if_false]
  cases (fs.probes (candidatePath importer specifier)).find? fs.isFile <;> rfl

/-- A specifier that is relative and not vendored is never external. -/
theorem resolve_ne_external (hrelative : isRelative specifier = true)
    (hvendored : isVendored importer (candidatePath importer specifier) vendorDirs = false)
    {other : String} : fs.resolve vendorDirs importer specifier ≠ .ok (.external other) := by
  rw [resolve_of_relative hrelative hvendored]
  split
  · nofun
  · cases (fs.probes (candidatePath importer specifier)).find? fs.isFile <;> nofun

/-- A specifier that leads to no file is external, on whatever disk. -/
theorem resolve_eq_external {other : String}
    (h : fs.resolve vendorDirs importer specifier = .ok (.external other)) (fs' : FileSystem) :
    fs'.resolve vendorDirs importer specifier = .ok (.external other) := by
  by_cases hlocal : isRelative specifier = true ∧
      isVendored importer (candidatePath importer specifier) vendorDirs = false
  · exact absurd h (resolve_ne_external hlocal.1 hlocal.2)
  · rw [resolve_eq, if_neg hlocal] at h ⊢
    exact h

section Faults

variable (h : fs.WithFaults fs')
include h

namespace WithFaults

theorem metadata_of_ok (hm : fs'.metadata p = .ok m) : fs.metadata p = .ok m := by
  rcases h.metadata p with heq | ⟨_, e, he⟩
  · exact heq.symm.trans hm
  · cases he.symm.trans hm

theorem metadata_of_not_hides (hm : fs.metadata p = .ok m) (hp : ¬ fs.Hides fs' p) :
    fs'.metadata p = .ok m := by
  rcases h.metadata p with heq | ⟨_, herror⟩
  · exact heq.trans hm
  · exact absurd ⟨⟨m, hm⟩, herror⟩ hp

theorem isFile_of_isFile (hp : fs'.isFile p = true) : fs.isFile p = true := by
  obtain ⟨hpresent, m, hm, hfile⟩ := isFile_iff.mp hp
  exact isFile_iff.mpr ⟨h.isPresent ▸ hpresent, m, h.metadata_of_ok hm, hfile⟩

theorem isFile_of_not_hides (hp : fs.isFile p = true) (hnot : ¬ fs.Hides fs' p) :
    fs'.isFile p = true := by
  obtain ⟨hpresent, m, hm, hfile⟩ := isFile_iff.mp hp
  exact isFile_iff.mpr ⟨h.isPresent ▸ hpresent, m, h.metadata_of_not_hides hm hnot, hfile⟩

/-- What was a directory is one with faults as well, or it is hidden. -/
theorem isDir_eq_of_not_hides (hnot : ¬ fs.Hides fs' p) : fs'.isDir p = fs.isDir p := by
  rw [Bool.eq_iff_iff, isDir_iff, isDir_iff, h.isPresent]
  refine and_congr_right fun _ => exists_congr fun m => and_congr_left fun _ => ?_
  exact ⟨h.metadata_of_ok, fun hm => h.metadata_of_not_hides hm hnot⟩

/-! ## Reading -/

/-- **The text of a file is read without its metadata**: a size that cannot be had is checked once
the bytes are there. -/
theorem readText_eq {maxFileSize : Nat} {text : String}
    (hread : fs.readText maxFileSize p = .ok text) : fs'.readText maxFileSize p = .ok text := by
  rw [readText] at hread ⊢
  split at hread
  · cases hread
  · rename_i hsize
    have hsize' : ((fs'.metadata p).toOption.filter fun m => m.size > maxFileSize) = none := by
      rcases h.metadata p with heq | ⟨_, e, he⟩
      · rwa [heq]
      · rw [he]
        rfl
    rw [hsize', h.contents]
    exact hread

theorem readStructure_eq {maxFileSize : Nat} {r : Dialect × ModuleStructure}
    (hread : fs.readStructure maxFileSize p = .ok r) :
    fs'.readStructure maxFileSize p = .ok r := by
  obtain ⟨text, htext, hdialect, hparse⟩ := readText_of_readStructure hread
  simp only [readStructure, hdialect, h.readText_eq htext, hparse]

/-! ## Probing -/

/-- **The search for a file ends where it did**, unless this file is hidden or found in a directory
that is. -/
theorem find?_probes {found : Path} (hfound : (fs.probes p).find? fs.isFile = some found)
    (hnot : ¬ fs.Hides fs' found) (hdir : found ∈ indexFiles p → ¬ fs.Hides fs' p) :
    (fs'.probes p).find? fs'.isFile = some found := by
  have hfile : fs'.isFile found = true :=
    h.isFile_of_not_hides (List.find?_some hfound) hnot
  by_cases hp : fs.Hides fs' p
  · have hskip : fs'.probes p = extended p ++ if p.extension?.isSome then [p] else [] := by
      obtain ⟨_, e, he⟩ := hp
      have hisDir : fs'.isDir p = false := by
        rw [isDir, he]
        exact Bool.and_false _
      rw [probes, hisDir]
      rfl
    rw [hskip]
    refine find?_eq_some_of_imp ?_ (fun _ => h.isFile_of_isFile) hfile
    rw [probes, List.append_assoc, List.find?_append] at hfound
    rcases Option.or_eq_some_iff.mp hfound with hindex | ⟨_, hlater⟩
    · split at hindex
      · exact absurd hp (hdir (List.mem_of_find?_eq_some hindex))
      · cases hindex
    · exact hlater
  · rw [probes, h.isDir_eq_of_not_hides hp, ← probes]
    exact find?_eq_some_of_imp hfound (fun _ => h.isFile_of_isFile) hfile

/-- **An import is diverted only by a fault** of the file that it would lead to, or of the directory
in which that is an index file. -/
theorem hides_of_diverts (hdiverts : fs.Diverts fs' vendorDirs importer specifier) :
    ∃ found, fs.resolve vendorDirs importer specifier = .ok (.file (.ofPath found)) ∧
      (fs.Hides fs' found ∨ found ∈ indexFiles (candidatePath importer specifier) ∧
        fs.Hides fs' (candidatePath importer specifier)) := by
  obtain ⟨t, t', ht, ht', hne⟩ := hdiverts
  obtain ⟨hrelative, hvendored⟩ := not_isVendored_of_resolve ht
  have hresolve := ht
  rw [resolve_of_relative hrelative hvendored] at ht ht'
  split at ht
  · rename_i hmodule
    rw [if_pos hmodule] at ht'
    exact absurd (Resolution.file.inj (Except.ok.inj (ht'.symm.trans ht))) hne
  · rename_i hmodule
    rw [if_neg hmodule] at ht'
    cases hfound : (fs.probes (candidatePath importer specifier)).find? fs.isFile with
    | none =>
      rw [hfound] at ht
      cases ht
    | some found =>
      rw [hfound] at ht
      obtain rfl := Resolution.file.inj (Except.ok.inj ht)
      refine ⟨found, hresolve, ?_⟩
      -- If neither is hidden, the search ends where it did.
      by_contra hnot
      obtain ⟨hshown, hdir⟩ := not_or.mp hnot
      rw [h.find?_probes hfound hshown fun hindex hhidden => hdir ⟨hindex, hhidden⟩] at ht'
      exact hne (Resolution.file.inj (Except.ok.inj ht')).symm

/-! ## Builds -/

/-- **What a module says is the same with faults**, if it says anything and none of its imports is
diverted. -/
theorem analyze_eq (hleaf : (fs.analyze config id).leaf = .ok leaf)
    (hleaf' : (fs'.analyze config id).leaf = .ok leaf') (hkeeps : fs.KeepsTargets fs' config id) :
    fs.analyze config id = fs'.analyze config id := by
  obtain ⟨dialect, contents, hread, hresolve⟩ := exists_leaf_iff.mp ⟨leaf, hleaf⟩
  obtain ⟨dialect', contents', hread', hresolve'⟩ := exists_leaf_iff.mp ⟨leaf', hleaf'⟩
  have hsame := h.readStructure_eq hread
  obtain ⟨rfl, rfl⟩ := Prod.mk.inj (Except.ok.inj (hread'.symm.trans hsame))
  have hstatements : ∀ s ∈ contents'.imports, fs.resolve config.vendorDirs id.path s.source
      = fs'.resolve config.vendorDirs id.path s.source := by
    intro s hs
    obtain ⟨r, hr⟩ := hresolve s hs
    obtain ⟨r', hr'⟩ := hresolve' s hs
    cases r with
    | external other => rw [hr, resolve_eq_external hr fs']
    | file t =>
      cases r' with
      | external other => cases hr.symm.trans (resolve_eq_external hr' fs)
      | file t' =>
        by_cases heq : t' = t
        · rw [hr, hr', heq]
        · exact absurd ⟨t, t', hr, hr', heq⟩ (hkeeps _ _ hread s hs)
  rw [analyze, analyze, hread, hread']
  simp only [Targets.of_congr hstatements]

theorem entriesOf_eq {dir : Path} {names : List String} {es : List (String × Metadata)}
    (hes : fs'.entriesOf dir names = .ok es) : fs.entriesOf dir names = .ok es := by
  induction names generalizing es with
  | nil => exact hes
  | cons name rest ih =>
    rw [entriesOf] at hes ⊢
    cases hm : fs'.metadata (dir.child name) with
    | error e =>
      rw [hm] at hes
      cases hes
    | ok m =>
      cases hrest : fs'.entriesOf dir rest with
      | error e =>
        simp only [hm, hrest] at hes
        cases hes
      | ok es' =>
        simp only [hm, hrest] at hes
        simp only [h.metadata_of_ok hm, ih hrest]
        exact hes

/-- **A directory that is listed with faults has the same listing without them**: a walk sees the
metadata of all that it lists. -/
theorem listing_eq {dir : Path} {l : Listing} (hl : fs'.listing config dir = .ok l) :
    fs.listing config dir = .ok l := by
  rw [listing, h.names] at hl
  rw [listing]
  split at hl
  · cases hl
  · rename_i names hnames
    cases hes : fs'.entriesOf dir (Listing.sortNames names) with
    | error e =>
      rw [hes] at hl
      cases hl
    | ok es =>
      rw [hes] at hl
      simp only [h.entriesOf_eq hes]
      exact hl

theorem absolute_eq (p : Path) : fs'.absolute p = fs.absolute p := by
  rw [absolute, absolute, h.workingDir]

end WithFaults

end Faults

/-- A statement leads to a file that its module imports. -/
theorem mem_importsOf_of_resolve (hleaf : (fs.analyze config id).leaf = .ok leaf)
    {dialect : Dialect} {contents : ModuleStructure}
    (hread : fs.readStructure config.maxFileSize id.path = .ok (dialect, contents))
    {s : ImportStatement} (hs : s ∈ contents.imports)
    (hresolve : fs.resolve config.vendorDirs id.path s.source = .ok (.file t)) :
    t ∈ fs.importsOf config id := by
  obtain ⟨contents', hread', _, _, himport⟩ := importOf?_of_analyze hleaf
  obtain ⟨_, rfl⟩ := Prod.mk.inj (Except.ok.inj (hread.symm.trans hread'))
  have hto : s ∈ fs.statementsTo config.vendorDirs id.path t contents.imports := by
    rw [statementsTo, List.mem_filter, beq_iff_eq, targetOf?_eq_some]
    exact ⟨hs, hresolve⟩
  obtain ⟨record, hrecord, _⟩ := ImportRecord.exists_collect_of_mem hto
  rw [importsOf_of_analyze hleaf]
  exact OrderedMap.mem_keys_of_get? ((himport t).trans hrecord)

/-- The sources in a record are those of statements that lead to its file. -/
theorem Assembled.exists_statement_of_record {modules : OrderedMap ModuleId Leaf}
    (h : fs.Assembled config modules) (hget : modules.get? id = some leaf) {record : ImportRecord}
    (hrecord : leaf.importOf? t = some record) (hsource : specifier ∈ record.specifiers) :
    fs.resolve config.vendorDirs id.path specifier = .ok (.file t) := by
  obtain ⟨raw, hraw, rfl⟩ := h.analyzed hget
  obtain ⟨contents, _, _, _, himport⟩ := importOf?_of_analyze hraw
  rw [importOf?_linkLeaf, himport] at hrecord
  obtain ⟨record, hcollect, rfl⟩ := Option.map_eq_some_iff.mp hrecord
  have hne : fs.statementsTo config.vendorDirs id.path t contents.imports ≠ [] := fun hnil => by
    cases (ImportRecord.collect_eq_none_iff.mpr hnil).symm.trans hcollect
  rw [ImportRecord.collect_eq hne] at hcollect
  obtain rfl := Option.some.inj hcollect
  obtain ⟨s, hs, rfl⟩ := List.mem_map.mp (List.mem_eraseDups.mp hsource)
  rw [statementsTo, List.mem_filter, beq_iff_eq, targetOf?_eq_some] at hs
  exact hs.2

/-- Builds that have the same modules on both disks keep the targets of all of them. -/
theorem keepsTargets_of_assembled {modules : OrderedMap ModuleId Leaf}
    (h : fs.Assembled config modules) (h' : fs'.Assembled config modules)
    (hid : id ∈ modules.keys) : fs.KeepsTargets fs' config id := by
  rintro dialect contents hread s hs ⟨t, t', ht, ht', hne⟩
  obtain ⟨leaf, record, hget, hrecord, hsource⟩ := h.exists_record_of_statement hid hread hs ht
  have hsame := h'.exists_statement_of_record hget hrecord hsource
  exact hne (Resolution.file.inj (Except.ok.inj (ht'.symm.trans hsame)))

/-- **A fault changes a build that still succeeds only by diverting an import.**  On a disk with
faults a build that succeeds has the result that it has without them if and only if no import of its
modules is diverted; and an import is diverted only if there is a fault of the file that it would
lead to, or of the directory whose index file that is. -/
theorem faults_divert_only (fs fs' : FileSystem) (config : Config) (h : fs.WithFaults fs') :
    (∀ entry g g', fs.moduleGraph config entry = .ok g → fs'.moduleGraph config entry = .ok g' →
      (g' = g ↔ ∀ id ∈ g.modules.keys, fs.KeepsTargets fs' config id)) ∧
    (∀ dir t t', fs.dependencyTree config dir = .ok t → fs'.dependencyTree config dir = .ok t' →
      (t' = t ↔ ∀ id ∈ t.modules.keys, fs.KeepsTargets fs' config id)) ∧
    ∀ importer specifier, fs.Diverts fs' config.vendorDirs importer specifier →
      ∃ found, fs.resolve config.vendorDirs importer specifier = .ok (.file (.ofPath found)) ∧
        (fs.Hides fs' found ∨ found ∈ indexFiles (candidatePath importer specifier) ∧
          fs.Hides fs' (candidatePath importer specifier)) := by
  have hagree {modules modules' : OrderedMap ModuleId Leaf} (hbuild : fs.Assembled config modules)
      (hbuild' : fs'.Assembled config modules')
      (hkeeps : ∀ id ∈ modules.keys, fs.KeepsTargets fs' config id) (id : ModuleId)
      (hid : id ∈ modules.keys) (hid' : id ∈ modules'.keys) :
      fs.analyze config id = fs'.analyze config id := by
    obtain ⟨leaf, hleaf, _⟩ := hbuild id hid
    obtain ⟨leaf', hleaf', _⟩ := hbuild' id hid'
    exact h.analyze_eq hleaf hleaf' (hkeeps id hid)
  refine ⟨fun entry g g' hg hg' => ?_, fun dir t t' ht ht' => ?_, fun _ _ => h.hides_of_diverts⟩
  · obtain ⟨top, htop, hgraph⟩ := graphFrom_of_moduleGraph hg
    rw [moduleGraph_of_absolute ((h.absolute_eq entry).trans htop)] at hg'
    have hbuild := assembled_graphFrom hgraph
    have hbuild' := assembled_graphFrom hg'
    constructor
    · rintro rfl
      exact fun id => keepsTargets_of_assembled hbuild hbuild'
    · exact fun hkeeps => graphFrom_eq_of_agree hgraph hg' (hagree hbuild hbuild' hkeeps)
  · obtain ⟨top, htop, hwalk⟩ := walk_of_dependencyTree ht
    rw [dependencyTree_of_absolute ((h.absolute_eq dir).trans htop)] at ht'
    have hbuild := assembled_walk hwalk
    have hbuild' := assembled_walk ht'
    constructor
    · rintro rfl
      exact fun id => keepsTargets_of_assembled hbuild hbuild'
    · refine fun hkeeps => walk_eq_of_agree hwalk ht' (fun q l l' hl hl' => ?_)
        (hagree hbuild hbuild' hkeeps)
      exact Except.ok.inj (hl.symm.trans (h.listing_eq hl'))

end FileSystem

/-! ## A file with two spellings to choose from -/

namespace Memory

variable {m : Memory} {p : Path} {fault : Fault}

/-- The disk with the metadata of a clean path told to fail. -/
def hide (m : Memory) (p : Path) (fault : Fault) : Memory :=
  { m with entries := m.entries.modify p fun e => { e with metadataFault := some fault } }

theorem find?_hide (q : Path) : (m.hide p fault).find? q
    = if q.clean = p then (m.find? q).map fun e => { e with metadataFault := some fault }
      else m.find? q := OrderedMap.get?_modify ..

/-- **A disk in memory whose metadata are told to fail is one with faults.** -/
theorem withFaults_hide (m : Memory) (p : Path) (fault : Fault) :
    m.toFileSystem.WithFaults (m.hide p fault).toFileSystem where
  contents := by
    ext1 q
    change (m.hide p fault).contents q = m.contents q
    rw [contents, contents, find?_hide]
    by_cases hq : q.clean = p
    · rw [if_pos hq]
      cases m.find? q <;> rfl
    · rw [if_neg hq]
  isPresent := by
    ext1 q
    change ((m.hide p fault).find? q).isSome = (m.find? q).isSome
    rw [find?_hide]
    by_cases hq : q.clean = p
    · rw [if_pos hq, Option.isSome_map]
    · rw [if_neg hq]
  names := by
    ext1 q
    change (m.hide p fault).names q = m.names q
    have hkeys : (m.hide p fault).entries.keys = m.entries.keys := OrderedMap.keys_modify ..
    rw [names, names, find?_hide, hkeys]
    by_cases hq : q.clean = p
    · rw [if_pos hq]
      cases m.find? q <;> rfl
    · rw [if_neg hq]
  workingDir := rfl
  metadata q := by
    change (m.hide p fault).metadata q = m.metadata q ∨
      (m.find? q).isSome = true ∧ ∃ e, (m.hide p fault).metadata q = .error e
    rw [metadata, metadata, find?_hide]
    by_cases hq : q.clean = p
    · rw [if_pos hq]
      cases m.find? q with
      | none => exact Or.inl rfl
      | some e => exact Or.inr ⟨rfl, _, rfl⟩
    · rw [if_neg hq]
      exact Or.inl rfl

/-- A disk with a module that imports a file which is there in two spellings. -/
def spelled : Memory :=
  (((bare none).put ⟨"/lib.js"⟩ { kind := .file "".toUTF8 }).put ⟨"/lib.ts"⟩
    { kind := .file "".toUTF8 }).put ⟨"/main.ts"⟩ { kind := .file "import './lib'".toUTF8 }

/-- The modules of the disk. -/
def spelledMain : ModuleId := ⟨⟨"/main.ts"⟩⟩
@[inherit_doc spelledMain] def spelledTs : ModuleId := ⟨⟨"/lib.ts"⟩⟩
@[inherit_doc spelledMain] def spelledJs : ModuleId := ⟨⟨"/lib.js"⟩⟩

/-- Without faults the import leads to the first spelling, and if that is hidden to the second. -/
theorem importsOf_spelled :
    spelled.toFileSystem.importsOf {} spelledMain = [spelledTs] ∧
      (spelled.hide ⟨"/lib.ts"⟩ (.io "boom")).toFileSystem.importsOf {} spelledMain
        = [spelledJs] := by
  decide +kernel

/-- If the second spelling is hidden it leads to the first one as before. -/
theorem importsOf_spelled_js :
    spelled.toFileSystem.importsOf {} spelledMain = [spelledTs] ∧
      (spelled.hide ⟨"/lib.js"⟩ (.io "boom")).toFileSystem.importsOf {} spelledMain
        = [spelledTs] ∧
      spelled.toFileSystem.importsOf {} spelledTs = [] := by
  decide +kernel

theorem isSelfContained_spelled :
    spelled.toFileSystem.IsSelfContained {} [spelledMain, spelledTs] ∧
      (spelled.hide ⟨"/lib.ts"⟩ (.io "boom")).toFileSystem.IsSelfContained {}
        [spelledMain, spelledJs] ∧
      (spelled.hide ⟨"/lib.js"⟩ (.io "boom")).toFileSystem.IsSelfContained {}
        [spelledMain, spelledTs] := by
  decide +kernel

/-- A graph of some modules that are built by themselves, from one of them. -/
theorem exists_graph_main {m : Memory} {other : ModuleId}
    (h : m.toFileSystem.IsSelfContained {} [spelledMain, other]) :
    ∃ g, m.toFileSystem.moduleGraph {} ⟨"/main.ts"⟩ = .ok g ∧
      (∀ id ∈ g.modules.keys, id ∈ [spelledMain, other]) ∧
      g.root.imports.keys = m.toFileSystem.importsOf {} spelledMain := by
  have habsolute : m.toFileSystem.absolute ⟨"/main.ts"⟩ = .ok ⟨"/main.ts"⟩ := by
    rw [FileSystem.absolute, if_pos (by decide)]
    decide +kernel
  have hentry : ModuleId.ofPath ⟨"/main.ts"⟩ = spelledMain := by decide +kernel
  have hroot : spelledMain ∈ [spelledMain, other] := List.mem_cons_self
  obtain ⟨g, hg⟩ := h.exists_graph (hentry ▸ hroot)
  have hreached : ∀ id ∈ g.modules.keys, id ∈ [spelledMain, other] := fun id hid =>
    h.mem_of_reaches (hentry ▸ hroot) ((FileSystem.mem_keys_graphFrom hg).mp hid)
  obtain ⟨_, _, _, _, _, hassembled, hget⟩ := FileSystem.graphFrom_eq_ok hg
  refine ⟨g, (FileSystem.moduleGraph_of_absolute habsolute).trans hg, hreached, ?_⟩
  rw [hassembled.keys_imports hget, hentry]

end Memory

namespace FileSystem

/-- A fault of the second spelling changes nothing. -/
theorem faults_divert_only_spelled :
    Memory.spelled.toFileSystem.WithFaults
        (Memory.spelled.hide ⟨"/lib.js"⟩ (.io "boom")).toFileSystem ∧
      ∃ g, Memory.spelled.toFileSystem.moduleGraph {} ⟨"/main.ts"⟩ = .ok g ∧
        (Memory.spelled.hide ⟨"/lib.js"⟩ (.io "boom")).toFileSystem.moduleGraph {} ⟨"/main.ts"⟩
          = .ok g := by
  have hfaults := Memory.withFaults_hide Memory.spelled ⟨"/lib.js"⟩ (.io "boom")
  obtain ⟨hself, _, hself'⟩ := Memory.isSelfContained_spelled
  obtain ⟨g, hg, hkeys, _⟩ := Memory.exists_graph_main hself
  obtain ⟨g', hg', _⟩ := Memory.exists_graph_main hself'
  obtain ⟨hgraphs, _⟩ := faults_divert_only _ _ {} hfaults
  have hsame : g' = g := by
    refine (hgraphs _ g g' hg hg').mpr ?_
    rintro id hid dialect contents hread s hs ⟨t, t', ht, ht', hne⟩
    obtain ⟨leaf, hleaf⟩ := hself.exists_leaf (hkeys id hid)
    obtain ⟨leaf', hleaf'⟩ := hself'.exists_leaf (hkeys id hid)
    have htarget := mem_importsOf_of_resolve hleaf hread hs ht
    have htarget' := mem_importsOf_of_resolve hleaf' (hfaults.readStructure_eq hread) hs ht'
    obtain ⟨hmain, hmain', hts⟩ := Memory.importsOf_spelled_js
    rcases List.mem_pair.mp (hkeys id hid) with rfl | rfl
    · rw [hmain, List.mem_singleton] at htarget
      rw [hmain', List.mem_singleton] at htarget'
      exact hne (htarget'.trans htarget.symm)
    · rw [hts] at htarget
      exact absurd htarget List.not_mem_nil
  exact ⟨hfaults, g, hg, hsame ▸ hg'⟩

/-- **A fault of the first spelling changes the graph**, and no error tells: the import leads to the
other file. -/
theorem fault_unnoticed_spelled :
    Memory.spelled.toFileSystem.WithFaults
        (Memory.spelled.hide ⟨"/lib.ts"⟩ (.io "boom")).toFileSystem ∧
      ∃ g g', Memory.spelled.toFileSystem.moduleGraph {} ⟨"/main.ts"⟩ = .ok g ∧
        (Memory.spelled.hide ⟨"/lib.ts"⟩ (.io "boom")).toFileSystem.moduleGraph {} ⟨"/main.ts"⟩
          = .ok g' ∧
        g.root.imports.keys = [Memory.spelledTs] ∧ g'.root.imports.keys = [Memory.spelledJs] ∧
        g' ≠ g := by
  obtain ⟨hself, hself', _⟩ := Memory.isSelfContained_spelled
  obtain ⟨himports, himports'⟩ := Memory.importsOf_spelled
  obtain ⟨g, hg, _, hroot⟩ := Memory.exists_graph_main hself
  obtain ⟨g', hg', _, hroot'⟩ := Memory.exists_graph_main hself'
  rw [himports] at hroot
  rw [himports'] at hroot'
  refine ⟨Memory.withFaults_hide _ _ _, g, g', hg, hg', hroot, hroot', ?_⟩
  rintro rfl
  exact absurd (hroot.symm.trans hroot') (by decide)

end FileSystem

end ImportAtlas
