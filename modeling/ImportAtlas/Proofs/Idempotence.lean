import ImportAtlas.Proofs.FirstMatch
import ImportAtlas.Proofs.Guards

/-!
# Proofs/Idempotence — a file that a specifier leads to is a specifier of itself

The text of a path is a specifier as well.  Seen from the file that imports it, the text of a file that
was found names this file and nothing else (`candidatePath_text`).  An index file and a file with an
extension behind it are module files, so that they are not searched for a second time
(`isModuleFile_or_eq_of_resolve`); any other file was found under its own name, and the search for it is
the same again.  Only a file that is seen from the root, which is in no directory, may have a path that
reads as the name of a package (`resolved_files_resolve`).
-/

namespace ImportAtlas

/-! ## Names with an extension -/

namespace Path

variable {p : Path} {front extension : String}

/-- What stands behind the last dot of a name is its extension, if something stands before it. -/
theorem extensionOfName?_append (hfront : front ≠ "") (hdot : '.' ∉ extension.toList) :
    extensionOfName? (front ++ "." ++ extension) = some extension := by
  obtain ⟨c, cs, hcs⟩ := List.exists_cons_of_ne_nil
    (show front.toList.reverse ≠ [] by simpa using hfront)
  have hreversed : (front ++ "." ++ extension).toList.reverse
      = extension.toList.reverse ++ '.' :: c :: cs := by
    simp [String.toList_append, ← hcs]
  have hdots : ∀ c ∈ extension.toList.reverse, (c != '.') = true := fun c hc =>
    bne_iff_ne.mpr fun heq => hdot (heq ▸ List.mem_reverse.mp hc)
  have hending : (extension.toList.reverse ++ '.' :: c :: cs).takeWhile (· != '.')
      = extension.toList.reverse := by
    rw [List.takeWhile_append_of_pos hdots]
    simp
  rw [extensionOfName?]
  simp only [hreversed, hending, List.drop_left, List.reverse_reverse, String.ofList_toList]

theorem extensions_of_probes : ∀ extension ∈ probeExtensions,
    '.' ∉ extension.toList ∧ (Dialect.ofExtension? extension).isSome = true := by
  decide

/-- **A name with an extension that is tried is that of a module file.** -/
theorem isModuleFile_of_fileName? (h : p.fileName? = some (front ++ "." ++ extension))
    (hfront : front ≠ "") (hextension : extension ∈ probeExtensions) : p.isModuleFile = true := by
  obtain ⟨hdot, hdialect⟩ := extensions_of_probes extension hextension
  rw [isModuleFile, dialect?, extension?, h, Option.bind_some, extensionOfName?_append hfront hdot,
    Option.bind_some]
  exact hdialect

theorem isModuleFile_child (hextension : extension ∈ probeExtensions) :
    (p.child ("index." ++ extension)).clean.isModuleFile = true := by
  have hplain := (FileSystem.isPlainName_probes extension hextension).2
  have hroute : (p.child ("index." ++ extension)).clean.route
      = ⟨p.isAbsolute, p.route.steps ++ ["index" ++ "." ++ extension]⟩ := by
    rw [route_clean, steps_child hplain]
    rfl
  refine isModuleFile_of_fileName? (fileName?_of_route (clean_clean _) hroute ?_) (by decide)
    hextension
  exact ne_up_of_isPlainName hplain

/-- **A clean path with an extension behind it is a module file**, but for the root, behind which it is
a hidden file without an extension. -/
theorem isModuleFile_appendExtension (h : p.clean = p) (hroot : p ≠ ⟨"/"⟩)
    (hextension : extension ∈ probeExtensions) : (p.appendExtension extension).isModuleFile = true := by
  have hpath : Route.path ⟨p.isAbsolute, p.route.steps⟩ = p := h
  rcases List.eq_nil_or_concat' p.route.steps with hnil | ⟨steps, step, hsteps⟩
  · rw [hnil] at hpath
    cases habsolute : p.isAbsolute with
    | true =>
      rw [habsolute] at hpath
      exact absurd hpath.symm hroot
    | false =>
      rw [habsolute] at hpath
      rw [← hpath]
      revert extension
      decide +kernel
  · have hcanonical := p.canonical_route
    have hroute : p.route = ⟨p.isAbsolute, steps ++ [step]⟩ := by
      rw [← hsteps]
      rfl
    rw [hroute, List.reverse_concat] at hcanonical
    obtain ⟨⟨hempty, _, hslash⟩, _, hcanonical⟩ := hcanonical
    have hplain := (FileSystem.isPlainName_probes extension hextension).1
    have hlonger := canonical_append_extension hcanonical hslash hplain
    rw [hsteps] at hpath
    have happended : p.appendExtension extension
        = Route.path ⟨p.isAbsolute, steps ++ [step ++ "." ++ extension]⟩ := by
      rw [← appendExtension_path, hpath]
    rw [happended]
    refine isModuleFile_of_fileName? (fileName?_of_route (clean_path hlonger) (route_path hlonger) ?_)
      hempty hextension
    exact ne_up_of_isPlainName (isPlainName_append_extension hslash hplain)

end Path

/-! ## The text of a path as a specifier -/

variable {fs : FileSystem} {vendorDirs : List String} {importer p : Path} {specifier : String}
  {t : ModuleId}

theorem isRelative_of_isAbsolute (h : p.isAbsolute = true) : isRelative p.text = true := by
  obtain ⟨rest, hrest⟩ : ∃ rest, p.text.toList = '/' :: rest := by
    simpa [Path.isAbsolute, List.head?_eq_some_iff] using h
  simp [isRelative, hrest]

/-- **Vendor directories are avoided up to the end of a path**, if they are avoided above its end and
the last name is not that of one. -/
theorem VendorsWithin.of_directories {base : List Path.Component}
    (h : VendorsWithin vendorDirs base p.directories)
    (hname : ∀ name, p.fileName? = some name → name ∉ vendorDirs) :
    VendorsWithin vendorDirs base p.components := by
  intro front name hfront hvendor
  rcases eq_or_prefix_dropLast hfront with hlast | habove
  · refine absurd hvendor (hname name (Path.fileName?_eq_some_iff.mpr ?_))
    rw [Path.directories, ← hlast, List.dropLast_concat]
  · exact h front name habove hvendor

namespace FileSystem

/-- What is seen from a file in an absolute directory is absolute. -/
theorem isAbsolute_of_resolve (himporter : importer.isAbsolute = true)
    (hparent : importer.parent?.isSome = true)
    (h : fs.resolve vendorDirs importer specifier = .ok (.file t)) : t.path.isAbsolute = true := by
  have hcandidate := isAbsolute_candidatePath himporter hparent specifier
  have hresolved := file_of_resolve h
  generalize candidatePath importer specifier = candidate at hcandidate hresolved
  rcases hresolved with ⟨_, rfl⟩ | ⟨found, hfound, _, rfl⟩
  · rwa [ModuleId.ofPath, Path.isAbsolute_clean]
  · rw [ModuleId.ofPath, Path.isAbsolute_clean]
    exact isAbsolute_of_mem_probes hcandidate hfound

/-- **The text of a file that was found names this file**, as seen from an absolute path: nothing stands
before an absolute path, and the root is in no directory. -/
theorem candidatePath_text (himporter : importer.isAbsolute = true)
    (h : fs.resolve vendorDirs importer specifier = .ok (.file t)) :
    candidatePath importer t.path.text = t.path := by
  have hclean : t.path.clean = t.path := congrArg ModuleId.path (ofPath_of_resolve h)
  have hjoin : importer.parent.join t.path = t.path := by
    cases habsolute : t.path.isAbsolute with
    | true => rw [Path.join, if_pos habsolute]
    | false =>
      have hparent : importer.parent? = none := by
        refine Option.not_isSome_iff_eq_none.mp fun hparent => ?_
        exact absurd (isAbsolute_of_resolve himporter hparent h) (by simp [habsolute])
      rw [Path.parent, hparent, Option.getD_none, Path.join, if_neg (by simp [habsolute]),
        if_pos (by simp)]
      simp
  rw [candidatePath, hjoin, hclean]

/-- **A file that was found need not be searched for again**: it is a module file, or it was found under
the name that the specifier gives. -/
theorem isModuleFile_or_eq_of_resolve (hroot : candidatePath importer specifier ≠ ⟨"/"⟩)
    (h : fs.resolve vendorDirs importer specifier = .ok (.file t)) :
    t.path.isModuleFile = true ∨ t.path = candidatePath importer specifier := by
  have hclean : (candidatePath importer specifier).clean = candidatePath importer specifier :=
    clean_candidatePath
  have hresolved := file_of_resolve h
  generalize candidatePath importer specifier = candidate at hclean hroot hresolved ⊢
  rcases hresolved with ⟨_, rfl⟩ | ⟨found, hfound, _, rfl⟩
  · exact .inr hclean
  · rcases mem_probes_cases hfound with ⟨_, hextension, rfl⟩ | ⟨_, hextension, rfl⟩ | rfl
    · exact .inl (Path.isModuleFile_child hextension)
    · exact .inl (Path.isModuleFile_clean (Path.isModuleFile_appendExtension hclean hroot hextension))
    · exact .inr hclean

/-- **A file that a specifier leads to is a specifier of itself.**  Seen from the same absolute path,
the text of the file leads to the file again, however this was found, if its last name is not that of a
vendor directory and the specifier did not name the root.  The text of an absolute path is a relative
specifier in any case, and a file that is seen from a file in a directory has one.  Seen from the root,
a file may have a path that reads as the name of a package, which is external. -/
theorem resolved_files_resolve (fs : FileSystem) (vendorDirs : List String) {importer : Path}
    {specifier : String} {t : ModuleId} (himporter : importer.isAbsolute = true)
    (h : fs.resolve vendorDirs importer specifier = .ok (.file t))
    (hname : ∀ name, t.path.fileName? = some name → name ∉ vendorDirs)
    (hroot : candidatePath importer specifier ≠ ⟨"/"⟩) :
    (isRelative t.path.text = true →
      fs.resolve vendorDirs importer t.path.text = .ok (.file t)) ∧
    (isRelative t.path.text = false →
      fs.resolve vendorDirs importer t.path.text = .ok (.external t.path.text)) ∧
    (t.path.isAbsolute = true → isRelative t.path.text = true) ∧
    (importer.parent?.isSome = true → t.path.isAbsolute = true) := by
  refine ⟨fun hrelative => ?_, fun hbare => ?_, isRelative_of_isAbsolute,
    fun hparent => isAbsolute_of_resolve himporter hparent h⟩
  · have htext := candidatePath_text himporter h
    obtain ⟨hspecifier, hvendored⟩ := not_isVendored_of_resolve h
    have hself : isVendored importer (candidatePath importer t.path.text) vendorDirs = false := by
      rw [htext, isVendored_eq_false_iff]
      exact (vendorsWithin_parent_of_resolve h).of_directories hname
    rw [resolve_of_relative hrelative hself, htext]
    cases hmodule : t.path.isModuleFile with
    | true => rw [if_pos rfl, ofPath_of_resolve h]
    | false =>
      have hsame : t.path = candidatePath importer specifier :=
        (isModuleFile_or_eq_of_resolve hroot h).resolve_left (by simp [hmodule])
      -- The search for the file is the one that found it.
      rw [resolve_of_relative hspecifier hvendored, ← hsame, hmodule] at h
      cases hfound : (fs.probes t.path).find? fs.isFile with
      | none =>
        rw [hfound] at h
        nomatch h
      | some found =>
        rw [hfound] at h
        exact h
  · exact resolve_of_leadsOut (.inl hbare) fs

end FileSystem

/-! ## A directory with an index file, and the root -/

namespace Memory

/-- A disk with an index file in a directory. -/
def indexed : Memory := (bare none).put ⟨"/src/lib/index.js"⟩ { kind := .file "".toUTF8 }

theorem resolve_indexed : indexed.toFileSystem.resolve ["src"] ⟨"/src/main.ts"⟩ "./lib"
    = .ok (.file ⟨⟨"/src/lib/index.js"⟩⟩) := by
  decide +kernel

end Memory

namespace FileSystem

/-- An index file leads to itself, also in a vendor directory that the importing file is in. -/
theorem resolved_files_resolve_indexed :
    (Path.mk "/src/main.ts").isAbsolute = true ∧
    Memory.indexed.toFileSystem.resolve ["src"] ⟨"/src/main.ts"⟩ "./lib"
      = .ok (.file ⟨⟨"/src/lib/index.js"⟩⟩) ∧
    (∀ name, (Path.mk "/src/lib/index.js").fileName? = some name → name ∉ ["src"]) ∧
    candidatePath ⟨"/src/main.ts"⟩ "./lib" ≠ ⟨"/"⟩ ∧
    Memory.indexed.toFileSystem.resolve ["src"] ⟨"/src/main.ts"⟩ "/src/lib/index.js"
      = .ok (.file ⟨⟨"/src/lib/index.js"⟩⟩) := by
  have habsolute : (Path.mk "/src/main.ts").isAbsolute = true := by decide
  have hfile : (Path.mk "/src/lib/index.js").fileName? = some "index.js" := by decide +kernel
  have hname : ∀ name, (Path.mk "/src/lib/index.js").fileName? = some name → name ∉ ["src"] := by
    rintro name h
    obtain rfl := Option.some.inj (hfile.symm.trans h)
    decide
  have hroot : candidatePath ⟨"/src/main.ts"⟩ "./lib" ≠ ⟨"/"⟩ := by decide +kernel
  obtain ⟨hself, _⟩ := resolved_files_resolve Memory.indexed.toFileSystem ["src"] habsolute
    Memory.resolve_indexed hname hroot
  exact ⟨habsolute, Memory.resolve_indexed, hname, hroot, hself (by decide)⟩

/-- **Seen from the root a file need not lead to itself**, be its path taken as it is or from the root:
the one is the name of a package, the other one another path. -/
theorem not_resolved_resolve_root :
    (Path.mk "/").isAbsolute = true ∧
    (Memory.bare none).toFileSystem.resolve [] ⟨"/"⟩ "./a.ts" = .ok (.file ⟨⟨"a.ts"⟩⟩) ∧
    (∀ name, (Path.mk "a.ts").fileName? = some name → name ∉ ([] : List String)) ∧
    candidatePath ⟨"/"⟩ "./a.ts" ≠ ⟨"/"⟩ ∧
    (Memory.bare none).toFileSystem.resolve [] ⟨"/"⟩ "a.ts" = .ok (.external "a.ts") ∧
    (Memory.bare none).toFileSystem.resolve [] ⟨"/"⟩ "/a.ts" = .ok (.file ⟨⟨"/a.ts"⟩⟩) :=
  ⟨by decide, by decide +kernel, fun _ _ => List.not_mem_nil, by decide +kernel, by decide +kernel,
    by decide +kernel⟩

end FileSystem

end ImportAtlas
