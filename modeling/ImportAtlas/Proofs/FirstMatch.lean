import ImportAtlas.Proofs.Faults
import ImportAtlas.Proofs.NormalForm
import Mathlib.Data.List.Find

/-!
# Proofs/FirstMatch — the order in which files are tried

A specifier is external, or names a module file by itself, or leads to the first regular file of a
short list: the index files of a directory, then the path with an extension behind it, then the path
(`resolve_takes_first_match`).  Nothing else is looked at, so that two disks answer alike if they agree
on ten paths.
-/

namespace ImportAtlas

/-! ## Parents of absolute paths -/

namespace Path

variable {p q : Path}

theorem prefix_upToLastStep (a : Bool) (ps : List String) : upToLastStep a ps <+: ps := by
  have hkept := List.dropWhile_suffix (l := ps.zipIdx.reverse) fun x => !isStep a x.2 x.1
  have hprefix := (List.reverse_prefix.mpr hkept).map Prod.fst
  rwa [List.reverse_reverse, List.zipIdx_map_fst, List.map_reverse] at hprefix

/-- What is kept of an absolute path ends in a step. -/
theorem isSome_of_getLast?_upToLastStep {ps : List String} {piece : String}
    (h : (upToLastStep true ps).getLast? = some piece) :
    (Component.ofPiece? piece).isSome = true := by
  rw [upToLastStep, List.getLast?_reverse, List.head?_map, Option.map_eq_some_iff] at h
  obtain ⟨⟨_, place⟩, hhead, rfl⟩ := h
  have hstep := List.head?_dropWhile_not (fun (x : String × Nat) => !isStep true x.2 x.1)
    ps.zipIdx.reverse
  rw [hhead] at hstep
  simpa [isStep] using hstep

/-- Nothing stands before the first slash of an absolute path. -/
theorem head?_pieces_of_isAbsolute (h : p.isAbsolute = true) : p.pieces.head? = some "" := by
  obtain ⟨rest, hrest⟩ : ∃ rest, p.text.toList = '/' :: rest := by
    simpa [isAbsolute, List.head?_eq_some_iff] using h
  rw [pieces, hrest, splitSlash, if_pos (by decide)]
  rfl

/-- **The parent of an absolute path is absolute**, if there is one. -/
theorem isAbsolute_of_parent? (h : p.isAbsolute = true) (hparent : p.parent? = some q) :
    q.isAbsolute = true := by
  have hfirst := head?_pieces_of_isAbsolute h
  simp only [parent?, h, Bool.true_and] at hparent
  split at hparent
  · cases hparent
  generalize habove : upToLastStep true (upToLastStep true p.pieces).dropLast = above at hparent
  obtain ⟨behind, hpieces⟩ : above <+: p.pieces := habove ▸
    ((prefix_upToLastStep ..).trans (List.dropLast_prefix _)).trans (prefix_upToLastStep ..)
  rw [← hpieces] at hfirst
  -- What is kept starts with the empty piece, which is no step, so that it is not kept alone.
  rcases above with _ | ⟨piece, _ | ⟨next, above⟩⟩
  · obtain rfl := Option.some.inj hparent
    rfl
  · obtain rfl := Option.some.inj hfirst
    have hstep := isSome_of_getLast?_upToLastStep (congrArg List.getLast? habove)
    exact absurd hstep (by decide)
  · obtain rfl := Option.some.inj hfirst
    obtain rfl := Option.some.inj hparent
    rw [String.intercalate_cons_of_ne_nil (List.cons_ne_nil _ _), String.empty_append]
    exact isAbsolute_append (p := ⟨"/"⟩) rfl _

end Path

/-! ## What is tried -/

/-- The index files of a directory, in the order they rank. -/
def indexRanking (c : Path) : List Path :=
  ["index.tsx", "index.ts", "index.jsx", "index.js"].map c.child

/-- The path with each extension behind it, in the order they rank, and the path itself behind them if
it has an extension of its own. -/
def fileRanking (c : Path) : List Path :=
  [".tsx", ".ts", ".jsx", ".js"].map (fun ending => ⟨c.text ++ ending⟩) ++
    if c.extension?.isSome then [c] else []

/-- **A specifier that leads out of the project**: it names a package, or leads into a vendor
directory. -/
def LeadsOut (vendorDirs : List String) (importer : Path) (specifier : String) : Prop :=
  isRelative specifier = false ∨
    isVendored importer (candidatePath importer specifier) vendorDirs = true

namespace FileSystem

variable {fs fs' : FileSystem} {vendorDirs : List String} {c p q importer : Path} {specifier : String}

/-- **A regular file**: it is there, and the disk says that it is one.  A question without an answer
says nothing. -/
def IsRegular (fs : FileSystem) (p : Path) : Prop :=
  fs.isPresent p = true ∧ ∃ m, fs.metadata p = .ok m ∧ m.isFile = true

/-- A directory: it is there, and the disk says that it is one. -/
def IsDirectory (fs : FileSystem) (p : Path) : Prop :=
  fs.isPresent p = true ∧ ∃ m, fs.metadata p = .ok m ∧ m.isDir = true

instance (fs : FileSystem) (p : Path) : Decidable (fs.IsDirectory p) :=
  decidable_of_iff _ isDir_iff

/-- The paths that a candidate may mean, in the order they rank: only a directory has index files. -/
def ranking (fs : FileSystem) (c : Path) : List Path :=
  (if fs.IsDirectory c then indexRanking c else []) ++ fileRanking c

/-- **The first match** of a candidate: a regular file among the paths that it may mean, with no other
one in front of it. -/
def IsFirstMatch (fs : FileSystem) (c p : Path) : Prop :=
  fs.IsRegular p ∧ ∃ before after, fs.ranking c = before ++ p :: after ∧
    ∀ q ∈ before, ¬ fs.IsRegular q

/-- Two disks say the same about a path. -/
def SameAt (fs fs' : FileSystem) (p : Path) : Prop :=
  fs'.isPresent p = fs.isPresent p ∧ fs'.metadata p = fs.metadata p

theorem fileRanking_eq (c : Path) :
    fileRanking c = extended c ++ if c.extension?.isSome then [c] else [] := by
  simp [fileRanking, extended, probeExtensions, Path.appendExtension, String.append_assoc]

/-- The paths that rank are those that are probed. -/
theorem probes_eq_ranking (fs : FileSystem) (c : Path) : fs.probes c = fs.ranking c := by
  have hindex : indexFiles c = indexRanking c := rfl
  rw [probes, ranking, fileRanking_eq, hindex, List.append_assoc]
  simp only [IsDirectory, ← isDir_iff]

theorem find?_probes_eq_some_iff :
    (fs.probes c).find? fs.isFile = some p ↔ fs.IsFirstMatch c p := by
  simp [probes_eq_ranking, List.find?_eq_some_iff_append, IsFirstMatch, IsRegular, ← isFile_iff]

theorem find?_probes_eq_none_iff :
    (fs.probes c).find? fs.isFile = none ↔ ∀ p ∈ fs.ranking c, ¬ fs.IsRegular p := by
  simp [probes_eq_ranking, IsRegular, ← isFile_iff]

/-! ## The law -/

/-- **What a specifier leads to**, as seen from a file: it is external, a module file by its name, the
first match of the path that it names, or missing. -/
structure TakesFirstMatch (vendorDirs : List String) (importer c : Path) (specifier : String) :
    Prop where
  external_iff : ∀ (fs : FileSystem) text,
    fs.resolve vendorDirs importer specifier = .ok (.external text) ↔
      LeadsOut vendorDirs importer specifier ∧ text = specifier
  /-- A module file need not be there. -/
  of_isModuleFile : ¬ LeadsOut vendorDirs importer specifier → c.isModuleFile = true →
    ∀ fs : FileSystem, fs.resolve vendorDirs importer specifier = .ok (.file ⟨c⟩)
  file_iff : ¬ LeadsOut vendorDirs importer specifier → c.isModuleFile = false →
    ∀ (fs : FileSystem) id, fs.resolve vendorDirs importer specifier = .ok (.file id) ↔
      ∃ p, fs.IsFirstMatch c p ∧ id = .ofPath p
  /-- There is one way to fail only. -/
  error_iff : ∀ (fs : FileSystem) e, fs.resolve vendorDirs importer specifier = .error e ↔
    ¬ LeadsOut vendorDirs importer specifier ∧ c.isModuleFile = false ∧
      (∀ p ∈ fs.ranking c, ¬ fs.IsRegular p) ∧ e = .moduleNotFound c specifier importer
  /-- What is seen from an absolute path is named as it is found; the root is in no directory. -/
  ofPath_eq : importer.isAbsolute = true → importer.parent?.isSome = true →
    ∀ p ∈ indexRanking c ++ fileRanking c, ModuleId.ofPath p = ⟨p⟩
  /-- Nothing but the path and what may rank is looked at. -/
  eq_of_sameAt : ∀ fs fs' : FileSystem,
    (∀ p ∈ c :: (indexRanking c ++ fileRanking c), fs.SameAt fs' p) →
      fs'.resolve vendorDirs importer specifier = fs.resolve vendorDirs importer specifier
  few : (indexRanking c ++ fileRanking c).length ≤ 10

theorem not_leadsOut_iff : ¬ LeadsOut vendorDirs importer specifier ↔ isRelative specifier = true ∧
    isVendored importer (candidatePath importer specifier) vendorDirs = false := by
  rw [LeadsOut, not_or, Bool.not_eq_false, Bool.not_eq_true]

theorem resolve_of_leadsOut (h : LeadsOut vendorDirs importer specifier) (fs : FileSystem) :
    fs.resolve vendorDirs importer specifier = .ok (.external specifier) := by
  rw [resolve_eq, if_neg fun hlocal => not_leadsOut_iff.mpr hlocal h]

theorem resolve_eq_external_iff_leadsOut {text : String} :
    fs.resolve vendorDirs importer specifier = .ok (.external text) ↔
      LeadsOut vendorDirs importer specifier ∧ text = specifier := by
  by_cases hout : LeadsOut vendorDirs importer specifier
  · rw [resolve_of_leadsOut hout, Except.ok.injEq, Resolution.external.injEq, eq_comm,
      and_iff_right hout]
  · obtain ⟨hrelative, hvendored⟩ := not_leadsOut_iff.mp hout
    exact iff_of_false (resolve_ne_external hrelative hvendored) fun h => hout h.1

section Inside

variable (hout : ¬ LeadsOut vendorDirs importer specifier)
include hout

theorem resolve_of_isModuleFile (hmodule : (candidatePath importer specifier).isModuleFile = true)
    (fs : FileSystem) : fs.resolve vendorDirs importer specifier
      = .ok (.file ⟨candidatePath importer specifier⟩) := by
  obtain ⟨hrelative, hvendored⟩ := not_leadsOut_iff.mp hout
  rw [resolve_of_relative hrelative hvendored, if_pos hmodule, ModuleId.ofPath, clean_candidatePath]

variable (hmodule : (candidatePath importer specifier).isModuleFile = false)
include hmodule

theorem resolve_eq_elim (fs : FileSystem) : fs.resolve vendorDirs importer specifier
    = ((fs.probes (candidatePath importer specifier)).find? fs.isFile).elim
        (.error (.moduleNotFound (candidatePath importer specifier) specifier importer))
        fun found => .ok (.file (.ofPath found)) := by
  obtain ⟨hrelative, hvendored⟩ := not_leadsOut_iff.mp hout
  rw [resolve_of_relative hrelative hvendored, if_neg (by simp [hmodule])]

theorem resolve_eq_file_iff {id : ModuleId} :
    fs.resolve vendorDirs importer specifier = .ok (.file id) ↔
      ∃ p, fs.IsFirstMatch (candidatePath importer specifier) p ∧ id = .ofPath p := by
  simp only [resolve_eq_elim hout hmodule, ← find?_probes_eq_some_iff]
  cases (fs.probes (candidatePath importer specifier)).find? fs.isFile with
  | none => simp
  | some found => simp [eq_comm]

theorem resolve_eq_error_iff {e : BuildError} :
    fs.resolve vendorDirs importer specifier = .error e ↔
      (∀ p ∈ fs.ranking (candidatePath importer specifier), ¬ fs.IsRegular p) ∧
        e = .moduleNotFound (candidatePath importer specifier) specifier importer := by
  simp only [resolve_eq_elim hout hmodule, ← find?_probes_eq_none_iff]
  cases (fs.probes (candidatePath importer specifier)).find? fs.isFile with
  | none => simp [eq_comm]
  | some found => simp

end Inside

/-- What may rank is spelled clean if the candidate is absolute. -/
theorem clean_of_mem_ranking (hc : c.clean = c) (habsolute : c.isAbsolute = true)
    (hp : p ∈ indexRanking c ++ fileRanking c) : p.clean = p := by
  have hindex : indexRanking c = indexFiles c := rfl
  simp only [hindex, fileRanking_eq, List.mem_append, indexFiles, extended, List.mem_map] at hp
  rcases hp with ⟨extension, hextension, rfl⟩ | ⟨extension, hextension, rfl⟩ | hself
  · exact Path.clean_child hc habsolute (isPlainName_probes extension hextension).2
  · exact Path.clean_appendExtension hc (isPlainName_probes extension hextension).1
  · split at hself
    · rwa [List.mem_singleton.mp hself]
    · nomatch hself

/-- A candidate that is seen from an absolute path is absolute; the root is in no directory. -/
theorem isAbsolute_candidatePath (h : importer.isAbsolute = true)
    (hparent : importer.parent?.isSome = true) (specifier : String) :
    (candidatePath importer specifier).isAbsolute = true := by
  obtain ⟨dir, hdir⟩ := Option.isSome_iff_exists.mp hparent
  rw [candidatePath, Path.isAbsolute_clean, Path.parent, hdir]
  exact Path.isAbsolute_join (Path.isAbsolute_of_parent? h hdir)

theorem ranking_subset (fs : FileSystem) (c : Path) :
    fs.ranking c ⊆ indexRanking c ++ fileRanking c := by
  intro p hp
  rw [ranking] at hp
  split at hp
  · exact hp
  · exact List.mem_append_right _ hp

/-- Two disks that say the same about a candidate and about what may rank agree where it leads. -/
theorem resolve_eq_of_sameAt
    (h : ∀ p ∈ candidatePath importer specifier :: (indexRanking (candidatePath importer specifier) ++
      fileRanking (candidatePath importer specifier)), fs.SameAt fs' p) :
    fs'.resolve vendorDirs importer specifier = fs.resolve vendorDirs importer specifier := by
  obtain ⟨hcandidate, hranking⟩ := List.forall_mem_cons.mp h
  have hprobes : fs'.probes (candidatePath importer specifier)
      = fs.probes (candidatePath importer specifier) := by
    rw [probes, probes, isDir, isDir, hcandidate.1, hcandidate.2]
  have hfind : (fs.probes (candidatePath importer specifier)).find? fs'.isFile
      = (fs.probes (candidatePath importer specifier)).find? fs.isFile := by
    refine List.find?_congr fun p hp => ?_
    obtain ⟨hpresent, hmetadata⟩ := hranking p (ranking_subset fs _ (probes_eq_ranking fs _ ▸ hp))
    rw [isFile, isFile, hpresent, hmetadata]
  rw [resolve, resolve, hprobes, hfind]

/-- **What a specifier leads to is decided by the first match**, on every disk. -/
theorem resolve_takes_first_match (vendorDirs : List String) (importer : Path) (specifier : String) :
    TakesFirstMatch vendorDirs importer (candidatePath importer specifier) specifier where
  external_iff _ _ := resolve_eq_external_iff_leadsOut
  of_isModuleFile hout hmodule fs := resolve_of_isModuleFile hout hmodule fs
  file_iff hout hmodule _ _ := resolve_eq_file_iff hout hmodule
  error_iff fs e := by
    by_cases hout : LeadsOut vendorDirs importer specifier
    · rw [resolve_of_leadsOut hout]
      exact iff_of_false nofun fun h => h.1 hout
    · cases hmodule : (candidatePath importer specifier).isModuleFile with
      | true =>
        rw [resolve_of_isModuleFile hout hmodule]
        exact iff_of_false nofun fun h => nomatch h.2.1
      | false => rw [resolve_eq_error_iff hout hmodule, and_iff_right hout, and_iff_right rfl]
  ofPath_eq himporter hparent p hp := congrArg ModuleId.mk
    (clean_of_mem_ranking clean_candidatePath (isAbsolute_candidatePath himporter hparent _) hp)
  eq_of_sameAt _ _ h := resolve_eq_of_sameAt h
  few := by
    rw [indexRanking, fileRanking]
    split <;> simp

end FileSystem

end ImportAtlas
