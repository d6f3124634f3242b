import ImportAtlas.Path.Lemmas

/-!
# FileSystem/Basic — what a build asks of the disk

A build reads the disk and never changes it, so that a `FileSystem` is the answers to all questions
that may be asked.  Only finitely many files can be read and only so deep a directory can be listed;
that is why following imports and descending into directories come to an end.
-/

namespace ImportAtlas

/-- Why a question about the disk has no answer. -/
inductive FsError
  | notFound (path : Path)
  /-- The system refuses, and says why. -/
  | io (text : String)
  | other (text : String)
deriving DecidableEq, Repr, Inhabited

/-- The text of the error. -/
def FsError.message : FsError → String
  | notFound path => "File not found: " ++ path.text
  | io text => "I/O error: " ++ text
  | other text => "Runtime error: " ++ text

theorem exists_ok_of_bind {ε α β : Type} {x : Except ε α} {f : α → Except ε β} {b : β}
    (h : x >>= f = .ok b) : ∃ a, x = .ok a ∧ f a = .ok b := by
  cases x with
  | ok a => exact ⟨a, rfl, h⟩
  | error e => nomatch h

theorem eq_ok_of_mapError {ε ε' α : Type} {f : ε → ε'} {x : Except ε α} {a : α}
    (h : x.mapError f = .ok a) : x = .ok a := by
  cases x with
  | error e => nomatch h
  | ok b => exact congrArg Except.ok (Except.ok.inj h)

theorem exists_eq_ok_of_isOk {ε α : Type} {x : Except ε α} (h : x.isOk = true) :
    ∃ a, x = .ok a := by
  cases x with
  | ok a => exact ⟨a, rfl⟩
  | error e => nomatch h

theorem eq_ok_of_toOption {ε α : Type} {x : Except ε α} {a : α} (h : x.toOption = some a) :
    x = .ok a := by
  cases x with
  | ok b => exact congrArg Except.ok (Option.some.inj h)
  | error e => cases h

/-- What is known about a file without reading it. -/
structure Metadata where
  size : Nat
  isDir : Bool
  isFile : Bool
deriving DecidableEq, Repr, Inhabited

/-- The answers to all questions that a build may ask about the disk. -/
structure FileSystem where
  contents : Path → Except FsError ByteArray
  metadata : Path → Except FsError Metadata
  isPresent : Path → Bool
  /-- The names in a directory, in any order. -/
  names : Path → Except FsError (List String)
  workingDir : Except FsError Path
  /-- Only paths of a bounded length lead to a file. -/
  files_bounded :
    ∃ n, ∀ p bytes, p.clean = p → contents p = .ok bytes → p.text.length ≤ n
  /-- Only directories of a bounded depth can be listed. -/
  dirs_bounded : ∃ n, ∀ p ns, names p = .ok ns → p.depth ≤ n
  names_plain : ∀ p ns, names p = .ok ns → ∀ name ∈ ns, Path.isPlainName name = true
  names_nodup : ∀ p ns, names p = .ok ns → ns.Nodup

namespace FileSystem

/-- Whether the path leads to a file. -/
def isFile (fs : FileSystem) (p : Path) : Bool :=
  fs.isPresent p && (fs.metadata p).toOption.any Metadata.isFile

/-- Whether the path leads to a directory. -/
def isDir (fs : FileSystem) (p : Path) : Bool :=
  fs.isPresent p && (fs.metadata p).toOption.any Metadata.isDir

/-- **A disk that shows its files**: a file that can be read is there.  A record of answers need not
be so consistent; the disks of this library are. -/
def ShowsFiles (fs : FileSystem) : Prop :=
  ∀ p bytes, fs.contents p = .ok bytes → fs.isPresent p = true

/-- The clean form of a path as seen from the working directory. -/
def absolute (fs : FileSystem) (p : Path) : Except FsError Path :=
  if p.isAbsolute then .ok p.clean else fs.workingDir.map fun dir => (dir.join p).clean

theorem clean_of_absolute {fs : FileSystem} {p top : Path} (h : fs.absolute p = .ok top) :
    top.clean = top := by
  unfold absolute at h
  split at h
  · rw [← Except.ok.inj h, Path.clean_clean]
  · cases hdir : fs.workingDir with
    | error e =>
      rw [hdir] at h
      nomatch h
    | ok dir =>
      rw [hdir] at h
      rw [← Except.ok.inj h, Path.clean_clean]

end FileSystem

end ImportAtlas
