import ImportAtlas.FileSystem.Basic
import ImportAtlas.FileSystem.Directory

/-!
# FileSystem/Memory — a disk that is held in memory

Entries are found under the clean spelling of their paths.  An entry may be told to fail when it is
read or when its metadata is asked for.
-/

namespace ImportAtlas

/-- A failure that an entry is told to show. -/
inductive Fault
  | notFound
  | io (text : String)
  | other (text : String)
deriving DecidableEq, Repr, Inhabited

/-- The failure as an error about a path. -/
def Fault.error (fault : Fault) (p : Path) : FsError :=
  match fault with
  | notFound => .notFound p
  | io text => .io text
  | other text => .other text

namespace Memory

/-- What kind of thing an entry is. -/
inductive Kind
  | file (bytes : ByteArray)
  | directory
  /-- Neither a file nor a directory, such as a socket. -/
  | special (bytes : ByteArray)

/-- Something on the disk. -/
structure Entry where
  kind : Kind
  /-- The size that metadata show in place of the true one. -/
  shownSize : Option Nat := none
  readFault : Option Fault := none
  metadataFault : Option Fault := none

namespace Entry

/-- A directory without faults. -/
def directory : Entry := { kind := .directory }

/-- Whether the entry is a directory. -/
def isDir (e : Entry) : Bool := e.kind matches .directory

/-- The bytes of the entry. -/
def bytes (e : Entry) : ByteArray :=
  match e.kind with
  | .file bytes | .special bytes => bytes
  | .directory => .empty

/-- The metadata of the entry. -/
def metadata (e : Entry) : Metadata where
  size := e.shownSize.getD e.bytes.size
  isDir := e.isDir
  isFile := e.kind matches .file _

end Entry

end Memory

/-- A disk that is held in memory. -/
structure Memory where
  entries : OrderedMap Path Memory.Entry
  workingDir : Option Path

namespace Memory

/-- The entry that a path leads to. -/
def find? (m : Memory) (p : Path) : Option Entry := m.entries.get? p.clean

/-- The disk with an entry at a clean path, and with directories above it where there is nothing. -/
def put (m : Memory) (p : Path) (e : Entry) : Memory :=
  { m with entries := putAt .directory m.entries p e }

/-- The disk without what lies at a clean path and below it. -/
def remove (m : Memory) (p : Path) : Memory := { m with entries := removeAt m.entries p }

/-! ## Asking -/

/-- The bytes of a file. -/
def contents (m : Memory) (p : Path) : Except FsError ByteArray :=
  match m.find? p with
  | none => .error (.notFound p)
  | some e =>
    match e.readFault with
    | some fault => .error (fault.error p)
    | none => if e.isDir then .error (.io ("is a directory: " ++ p.text)) else .ok e.bytes

/-- The metadata of an entry. -/
def metadata (m : Memory) (p : Path) : Except FsError Metadata :=
  match m.find? p with
  | none => .error (.notFound p)
  | some e =>
    match e.metadataFault with
    | some fault => .error (fault.error p)
    | none => .ok e.metadata

/-- The names in a directory. -/
def names (m : Memory) (p : Path) : Except FsError (List String) :=
  match m.find? p with
  | none => .error (.notFound p)
  | some e =>
    match e.readFault with
    | some fault => .error (fault.error p)
    | none => .ok (namesIn m.entries.keys p.clean)

/-! ## Why builds end -/

theorem mem_keys_of_find? {m : Memory} {p : Path} {e : Entry} (h : m.find? p = some e) :
    p.clean ∈ m.entries.keys :=
  OrderedMap.isSome_get?_iff.1 (by rw [← Memory.find?, h]; rfl)

theorem mem_keys_of_contents {m : Memory} {p : Path} {bytes : ByteArray}
    (h : m.contents p = .ok bytes) : p.clean ∈ m.entries.keys := by
  unfold contents at h
  split at h
  · simp at h
  · exact mem_keys_of_find? ‹_›

theorem names_eq_ok_iff {m : Memory} {p : Path} {names : List String} : m.names p = .ok names ↔
    (∃ e, m.find? p = some e ∧ e.readFault = none) ∧ names = namesIn m.entries.keys p.clean := by
  rw [Memory.names]
  cases m.find? p with
  | none => simp
  | some e => cases hfault : e.readFault <;> simp [hfault, eq_comm]

theorem metadata_eq_ok_iff {m : Memory} {p : Path} {data : Metadata} : m.metadata p = .ok data ↔
    ∃ e, m.find? p = some e ∧ e.metadataFault = none ∧ e.metadata = data := by
  rw [Memory.metadata]
  cases m.find? p with
  | none => simp
  | some e => cases hfault : e.metadataFault <;> simp [hfault]

theorem mem_keys_of_names {m : Memory} {p : Path} {names : List String}
    (h : m.names p = .ok names) : p.clean ∈ m.entries.keys ∧ names = namesIn m.entries.keys p.clean := by
  obtain ⟨⟨_, hfind, _⟩, hnames⟩ := names_eq_ok_iff.mp h
  exact ⟨mem_keys_of_find? hfind, hnames⟩

/-- The disk as the answers to questions. -/
def toFileSystem (m : Memory) : FileSystem where
  contents := m.contents
  metadata := m.metadata
  isPresent p := (m.find? p).isSome
  names := m.names
  workingDir := match m.workingDir with
    | some dir => .ok dir
    | none => .error (.other "no working directory")
  files_bounded :=
    ⟨m.entries.keys.foldr (fun x n => max x.text.length n) 0, fun p _ hp h =>
      le_foldr_max (fun x => x.text.length) (hp ▸ mem_keys_of_contents h)⟩
  dirs_bounded :=
    ⟨m.entries.keys.foldr (fun x n => max x.depth n) 0, fun p _ h =>
      p.depth_clean ▸ le_foldr_max Path.depth (mem_keys_of_names h).1⟩
  names_plain p names h name hn := by
    obtain ⟨_, rfl⟩ := mem_keys_of_names h
    exact isPlainName_of_mem_namesIn hn
  names_nodup p names h := by
    obtain ⟨_, rfl⟩ := mem_keys_of_names h
    exact nodup_namesIn m.entries.nodup_keys p.clean

theorem showsFiles (m : Memory) : m.toFileSystem.ShowsFiles := by
  intro p bytes h
  change (m.find? p).isSome = true
  rw [show m.toFileSystem.contents p = m.contents p from rfl, contents] at h
  split at h
  · nomatch h
  · rename_i e he
    exact Option.isSome_of_eq_some he

/-- The disk with nothing but its root. -/
def bare (workingDir : Option Path) : Memory := ⟨.ofList [(⟨"/"⟩, .directory)], workingDir⟩

end Memory

end ImportAtlas
