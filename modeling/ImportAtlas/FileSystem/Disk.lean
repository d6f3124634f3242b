import ImportAtlas.FileSystem.Basic
import ImportAtlas.FileSystem.Directory

/-!
# FileSystem/Disk — a disk with symbolic links, and what its system says

A path is followed component by component: a link is replaced by its target, and only so many links
are followed.  The length of paths is limited, which also bounds what a walk can come to.
-/

namespace ImportAtlas

/-- Why the system refuses. -/
inductive SystemFault
  | notFound
  | alreadyThere
  | notADirectory
  | isADirectory
  | nameTooLong
  | tooManyLinks
  /-- A path with a null character in it is no path to the system. -/
  | nullCharacter
deriving DecidableEq, Repr, Inhabited

/-- The text of the fault. -/
def SystemFault.message : SystemFault → String
  | notFound => "No such file or directory (os error 2)"
  | alreadyThere => "File exists (os error 17)"
  | notADirectory => "Not a directory (os error 20)"
  | isADirectory => "Is a directory (os error 21)"
  | nameTooLong => "File name too long (os error 36)"
  | tooManyLinks => "Too many levels of symbolic links (os error 40)"
  | nullCharacter => "file name contained an unexpected NUL byte"

/-- The fault as an error about a path; `action` says what was attempted. -/
def SystemFault.error (fault : SystemFault) (action : String) (p : Path) : FsError :=
  match fault with
  | notFound => .notFound p
  | fault => .io s!"Failed to {action} {p}: {fault.message}"

namespace Disk

/-- Something on the disk. -/
inductive Node
  | directory
  | file (bytes : ByteArray)
  | link (target : Path)

/-- Where a path leads. -/
inductive Place
  | directory (path : Path)
  | file (path : Path) (bytes : ByteArray)
  /-- There is nothing, but the directory in which it would be is there; `rest` are the pieces of
  the path behind the missing one. -/
  | vacant (path : Path) (rest : List String)

end Disk

/-- A disk with symbolic links.  The keys are clean paths without links in them. -/
structure Disk where
  nodes : OrderedMap Path Disk.Node
  workingDir : Path

namespace Disk

/-- The number of bytes from which on a path is too long. -/
def maxPathSize : Nat := 4096

/-- The number of bytes that a component may have. -/
def maxNameSize : Nat := 255

/-- The number of links that are followed for one path. -/
def maxLinks : Nat := 40

/-- Where the pieces of a path lead from a directory. -/
def follow (d : Disk) (links : Nat) (here : Path) : List String → Except SystemFault Place
  | [] => .ok (.directory here)
  | piece :: rest =>
    if piece == "" || piece == "." then d.follow links here rest
    else if piece == ".." then d.follow links (here.parent?.getD here) rest
    else if piece.utf8ByteSize > maxNameSize then .error .nameTooLong
    else
      let next := here.child piece
      match d.nodes.get? next, links with
      | none, _ => .ok (.vacant next rest)
      | some .directory, links => d.follow links next rest
      | some (.file bytes), _ =>
        if rest.isEmpty then .ok (.file next bytes) else .error .notADirectory
      | some (.link _), 0 => .error .tooManyLinks
      | some (.link target), links + 1 =>
        d.follow links (if target.isAbsolute then ⟨"/"⟩ else here) (target.pieces ++ rest)
termination_by pieces => (links, pieces.length)

/-- Where a path leads. -/
def place (d : Disk) (p : Path) : Except SystemFault Place :=
  if p.text.toList.contains '\x00' then .error .nullCharacter
  else if p.text == "" then .error .notFound
  else if p.text.utf8ByteSize ≥ maxPathSize then .error .nameTooLong
  else d.follow maxLinks (if p.isAbsolute then ⟨"/"⟩ else d.workingDir) p.pieces

/-! ## Asking -/

/-- The bytes of a file. -/
def bytes (d : Disk) (p : Path) : Except SystemFault ByteArray :=
  match d.place p with
  | .ok (.file _ bytes) => .ok bytes
  | .ok (.directory _) => .error .isADirectory
  | .ok (.vacant _ _) => .error .notFound
  | .error fault => .error fault

/-- The metadata of a file or directory. -/
def metadata (d : Disk) (p : Path) : Except SystemFault Metadata :=
  match d.place p with
  | .ok (.file _ bytes) => .ok ⟨bytes.size, false, true⟩
  | .ok (.directory _) => .ok ⟨4096, true, false⟩
  | .ok (.vacant _ _) => .error .notFound
  | .error fault => .error fault

/-- The names in a directory. -/
def names (d : Disk) (p : Path) : Except SystemFault (List String) :=
  match d.place p with
  | .ok (.directory dir) => .ok (namesIn d.nodes.keys dir)
  | .ok (.file _ _) => .error .notADirectory
  | .ok (.vacant _ _) => .error .notFound
  | .error fault => .error fault

theorem place_ok {d : Disk} {p : Path} {place : Place} (h : d.place p = .ok place) :
    p.text.utf8ByteSize < maxPathSize := by
  unfold Disk.place at h
  split at h
  · simp at h
  · split at h
    · simp at h
    · split at h
      · simp at h
      · omega

theorem length_le_utf8ByteSize (s : String) : s.length ≤ s.utf8ByteSize := by
  induction s using String.push_induction with
  | empty => simp
  | push b c ih =>
    rw [String.utf8ByteSize_push, String.length_push]
    have := c.utf8Size_pos
    omega

theorem length_of_place {d : Disk} {p : Path} {place : Place} (h : d.place p = .ok place) :
    p.text.length < maxPathSize :=
  Nat.lt_of_le_of_lt (length_le_utf8ByteSize p.text) (place_ok h)

theorem place_of_bytes {d : Disk} {p : Path} {bytes : ByteArray} (h : d.bytes p = .ok bytes) :
    ∃ place, d.place p = .ok place := by
  unfold Disk.bytes at h
  split at h <;> first | exact ⟨_, ‹_›⟩ | simp at h

theorem place_of_names {d : Disk} {p : Path} {names : List String} (h : d.names p = .ok names) :
    (∃ place, d.place p = .ok place) ∧ ∃ dir, names = namesIn d.nodes.keys dir := by
  unfold Disk.names at h
  split at h
  · exact ⟨⟨_, ‹_›⟩, ⟨_, (Except.ok.inj h).symm⟩⟩
  all_goals simp at h

theorem length_of_bytes {d : Disk} {p : Path} {bytes : ByteArray} (h : d.bytes p = .ok bytes) :
    p.text.length ≤ maxPathSize := by
  obtain ⟨_, hp⟩ := place_of_bytes h
  exact Nat.le_of_lt (length_of_place hp)

theorem depth_of_names {d : Disk} {p : Path} {names : List String} (h : d.names p = .ok names) :
    p.depth ≤ maxPathSize + 1 := by
  obtain ⟨⟨_, hp⟩, _⟩ := place_of_names h
  have := length_of_place hp
  have := p.depth_le_length
  omega

theorem plain_of_names {d : Disk} {p : Path} {names : List String} (h : d.names p = .ok names) :
    ∀ name ∈ names, Path.isPlainName name = true := by
  obtain ⟨_, dir, rfl⟩ := place_of_names h
  exact fun name => isPlainName_of_mem_namesIn

theorem nodup_of_names {d : Disk} {p : Path} {names : List String} (h : d.names p = .ok names) :
    names.Nodup := by
  obtain ⟨_, dir, rfl⟩ := place_of_names h
  exact nodup_namesIn d.nodes.nodup_keys dir

/-- The disk as the answers to questions. -/
def toFileSystem (d : Disk) : FileSystem where
  contents p := (d.bytes p).mapError (·.error "read" p)
  metadata p := (d.metadata p).mapError (·.error "get metadata for" p)
  isPresent p := (d.metadata p).toOption.isSome
  names p := (d.names p).mapError (·.error "read directory" p)
  workingDir := .ok d.workingDir
  files_bounded := ⟨maxPathSize, fun _ _ _ h => length_of_bytes (eq_ok_of_mapError h)⟩
  dirs_bounded := ⟨maxPathSize + 1, fun _ _ h => depth_of_names (eq_ok_of_mapError h)⟩
  names_plain _ _ h := plain_of_names (eq_ok_of_mapError h)
  names_nodup _ _ h := nodup_of_names (eq_ok_of_mapError h)

theorem showsFiles (d : Disk) : d.toFileSystem.ShowsFiles := by
  intro p bytes h
  have hbytes : d.bytes p = .ok bytes := eq_ok_of_mapError h
  change (d.metadata p).toOption.isSome = true
  unfold Disk.bytes at hbytes
  split at hbytes
  · rename_i place _ hplace
    rw [metadata, hplace]
    rfl
  all_goals nomatch hbytes

/-! ## Changing -/

/-- The disk with something at a clean path, and with directories above it where there is nothing. -/
def put (d : Disk) (p : Path) (n : Node) : Disk :=
  { d with nodes := putAt .directory d.nodes p n }

/-- The disk without what lies at a clean path and below it. -/
def remove (d : Disk) (p : Path) : Disk := { d with nodes := removeAt d.nodes p }

/-- Writes a file; its directory has to be there. -/
def writeFile (d : Disk) (p : Path) (bytes : ByteArray) : Except SystemFault Disk :=
  match d.place p with
  | .ok (.file path _) => .ok (d.put path (.file bytes))
  | .ok (.directory _) => .error .isADirectory
  | .ok (.vacant path []) => .ok (d.put path (.file bytes))
  | .ok (.vacant _ rest) => .error (if rest.all (· == "") then .isADirectory else .notFound)
  | .error fault => .error fault

/-- Makes a directory; the one above has to be there.  A link is something that is there. -/
def makeDir (d : Disk) (p : Path) : Except SystemFault Disk :=
  match p.fileName?, d.place p with
  | some name, .ok (.vacant path rest) =>
    if !rest.all (· == "") then .error .notFound
    else
      let above := p.parent
      match d.place (if above.text == "" then ⟨"."⟩ else above) with
      | .ok (.directory dir) =>
        if dir.child name == path then .ok (d.put path .directory) else .error .alreadyThere
      | _ => .error .notFound
  | _, .ok (.vacant _ _) => .error .notFound
  | _, .ok _ => .error .alreadyThere
  | _, .error fault => .error fault

/-- Whether a path leads to a directory. -/
def isDir (d : Disk) (p : Path) : Bool := (d.metadata p).toOption.any Metadata.isDir

/-- Makes a directory unless it is there already. -/
def ensureDir (d : Disk) (p : Path) : Except SystemFault Disk :=
  match d.makeDir p with
  | .ok d => .ok d
  | .error fault => if d.isDir p then .ok d else .error fault

/-- Makes a directory and those above it; `fuel` bounds their number. -/
def ensureDirs (d : Disk) (fuel : Nat) (p : Path) : Except SystemFault Disk :=
  if p.text == "" then .ok d
  else match fuel, d.ensureDir p with
    | fuel + 1, .error .notFound =>
      match p.parent? with
      | some above => (d.ensureDirs fuel above).bind fun d => d.ensureDir p
      | none => .error .notFound
    | _, r => r

end Disk

end ImportAtlas
