import ImportAtlas.FileSystem.Memory
import ImportAtlas.Proofs.Walk

/-!
# Proofs/ListingOrder — the order in which a directory lists its names does not matter

Names are sorted before anything is done with them.  So two disks that differ only in the orders in
which they list their directories have the same listings, hence the same surveys, hence the same
trees and errors: `FileSystem.SameDisk.dependencyTree_eq`.  Of a disk in memory it is the order of its
entries that does not matter (`Memory.sameDisk_of_perm`).
-/

namespace ImportAtlas

variable {fs fs' : FileSystem}

namespace FileSystem

/-- The same answer about the names in a directory, up to their order. -/
inductive SameNames : Except FsError (List String) → Except FsError (List String) → Prop
  | ok {names names' : List String} (h : names.Perm names') : SameNames (.ok names) (.ok names')
  | error {e : FsError} : SameNames (.error e) (.error e)

/-- **Disks that answer all questions alike**, except for the order in which they list names. -/
structure SameDisk (fs fs' : FileSystem) : Prop where
  contents : fs.contents = fs'.contents
  metadata : fs.metadata = fs'.metadata
  isPresent : fs.isPresent = fs'.isPresent
  workingDir : fs.workingDir = fs'.workingDir
  names : ∀ dir, SameNames (fs.names dir) (fs'.names dir)

namespace SameDisk

variable (h : fs.SameDisk fs')
include h

/-- The analysis of a module lists no directory. -/
theorem analyze_eq (config : Config) (id : ModuleId) :
    fs.analyze config id = fs'.analyze config id := by
  obtain ⟨hcontents, hmetadata, hpresent, _, _⟩ := h
  cases fs
  cases fs'
  dsimp only at hcontents hmetadata hpresent
  subst hcontents hmetadata hpresent
  rfl

theorem entriesOf_eq (dir : Path) (names : List String) :
    fs.entriesOf dir names = fs'.entriesOf dir names := by
  induction names with
  | nil => rfl
  | cons name rest ih => rw [entriesOf, entriesOf, h.metadata, ih]

/-- **Two orders of names make one listing.** -/
theorem listing_eq (config : Config) (dir : Path) :
    fs.listing config dir = fs'.listing config dir := by
  have hnames := h.names dir
  unfold listing
  generalize fs.names dir = answer, fs'.names dir = answer' at hnames
  cases hnames with
  | ok hperm => simp only [Listing.sortNames_eq_of_perm hperm, h.entriesOf_eq]
  | error => rfl

/-- **Trees and errors do not depend on the order in which directories are listed.** -/
theorem dependencyTree_eq (config : Config) (dir : Path) :
    fs.dependencyTree config dir = fs'.dependencyTree config dir := by
  have habsolute : fs.absolute dir = fs'.absolute dir := by rw [absolute, absolute, h.workingDir]
  have hwalk : fs.walk config = fs'.walk config :=
    funext (walk_congr (h.listing_eq config) (h.analyze_eq config) h.metadata h.isPresent)
  rw [dependencyTree, dependencyTree, habsolute, hwalk]

end SameDisk

end FileSystem

/-! ## Disks in memory -/

namespace Memory

variable {m m' : Memory}

/-- **The order of the entries of a disk in memory shows in the listings alone.** -/
theorem sameDisk_of_perm (h : m.entries.entries.Perm m'.entries.entries)
    (hdir : m.workingDir = m'.workingDir) : m.toFileSystem.SameDisk m'.toFileSystem := by
  have hfind : m.find? = m'.find? := by
    refine funext fun p => Option.ext fun e => ?_
    rw [find?, find?, OrderedMap.get?_eq_some_iff, OrderedMap.get?_eq_some_iff, h.mem_iff]
  refine
    { contents := funext fun p => ?_
      metadata := funext fun p => ?_
      isPresent := funext fun p => congrArg (fun find => (find p).isSome) hfind
      workingDir := ?_
      names := fun dir => ?_ }
  · change m.contents p = m'.contents p
    rw [contents, contents, hfind]
  · change m.metadata p = m'.metadata p
    rw [metadata, metadata, hfind]
  · rw [toFileSystem, toFileSystem, hdir]
  · change FileSystem.SameNames (m.names dir) (m'.names dir)
    rw [names, names, hfind]
    cases m'.find? dir with
    | none => exact .error
    | some e =>
      cases hfault : e.readFault with
      | some fault => simpa only [hfault] using .error
      | none =>
        simp only [hfault]
        exact .ok ((h.map Prod.fst).filterMap _)

/-- The disk with its entries listed from the last to the first. -/
def reverse (m : Memory) : Memory :=
  { m with entries :=
    { entries := m.entries.entries.reverse
      nodup_keys :=
        ((List.reverse_perm _).map Prod.fst).nodup_iff.mpr m.entries.nodup_keys } }

theorem sameDisk_reverse (m : Memory) : m.toFileSystem.SameDisk m.reverse.toFileSystem :=
  sameDisk_of_perm (List.reverse_perm _).symm rfl

end Memory

end ImportAtlas
