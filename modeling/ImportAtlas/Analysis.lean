import ImportAtlas.Config
import ImportAtlas.Leaf
import ImportAtlas.ModuleStructure
import ImportAtlas.Resolution

/-!
# Analysis — what one module file says

`FileSystem.analyze` reads a file, parses it and finds out where its imports lead.  The edges that
were found before an import fails are kept.
-/

namespace ImportAtlas

/-- Where import statements lead: each that leads to a file, with that file, in the order they are
written, up to the first that fails. -/
structure Targets where
  found : List (ModuleId × ImportStatement)
  failure : Option BuildError
deriving Repr, Inhabited

/-- Where import statements lead, given where a specifier leads. -/
def Targets.of (resolve : String → Except BuildError Resolution) :
    List ImportStatement → Targets
  | [] => ⟨[], none⟩
  | statement :: rest =>
    match resolve statement.source with
    | .error e => ⟨[], some e⟩
    | .ok (.external _) => of resolve rest
    | .ok (.file target) =>
      let later := of resolve rest
      ⟨(target, statement) :: later.found, later.failure⟩

/-- The record that a statement leaves behind, after those before it. -/
def ImportRecord.merge (statement : ImportStatement) : Option ImportRecord → ImportRecord
  | none => ofStatement statement.source statement.bindings
  | some record => record.addStatement statement.source statement.bindings

/-- The records of import statements, one for each file that they lead to. -/
def importRecords (found : List (ModuleId × ImportStatement)) :
    OrderedMap ModuleId ImportRecord :=
  found.foldl (fun m (target, statement) => m.update target (ImportRecord.merge statement)) .empty

/-- What the analysis of a file brings to light. -/
structure Findings where
  /-- The files that it imports, in the order they are found. -/
  targets : List ModuleId
  leaf : Except BuildError Leaf

namespace FileSystem

/-- The text of a module file.  Its size is checked before it is read, as far as the metadata can be
had, and again when its bytes are there. -/
def readText (fs : FileSystem) (maxFileSize : Nat) (p : Path) : Except BuildError String :=
  match (fs.metadata p).toOption.filter fun m => m.size > maxFileSize with
  | some m => .error (.fileTooLarge p m.size maxFileSize)
  | none =>
    match fs.contents p with
    | .error e => .error (.unreadable p e)
    | .ok bytes =>
      if bytes.size > maxFileSize then .error (.fileTooLarge p bytes.size maxFileSize)
      else match String.fromUTF8? bytes with
        | some text => .ok text
        | none => .error (.invalidUtf8 p)

/-- What a module file imports and exports, and in which dialect. -/
def readStructure (fs : FileSystem) (maxFileSize : Nat) (p : Path) :
    Except BuildError (Dialect × ModuleStructure) :=
  match p.dialect? with
  | none => .error (.parse p .unsupportedExtension)
  | some dialect =>
    match fs.readText maxFileSize p with
    | .error e => .error e
    | .ok text =>
      match ModuleStructure.parse dialect text with
      | some contents => .ok (dialect, contents)
      | none => .error (.parse p .malformed)

/-- **What a module file says**: where its imports lead and what it exports. -/
def analyze (fs : FileSystem) (config : Config) (id : ModuleId) : Findings :=
  match fs.readStructure config.maxFileSize id.path with
  | .error e => ⟨[], .error e⟩
  | .ok (dialect, contents) =>
    let targets := Targets.of (fs.resolve config.vendorDirs id.path) contents.imports
    ⟨targets.found.map Prod.fst,
      match targets.failure with
      | some e => .error e
      | none => .ok ⟨id, dialect, importRecords targets.found, contents.exports⟩⟩

/-! ## What a successful analysis needs -/

theorem contents_of_readText {fs : FileSystem} {maxFileSize : Nat} {p : Path} {text : String}
    (h : fs.readText maxFileSize p = .ok text) : ∃ bytes, fs.contents p = .ok bytes := by
  unfold readText at h
  split at h
  · simp at h
  · split at h
    · simp at h
    · exact ⟨_, ‹_›⟩

theorem readText_of_readStructure {fs : FileSystem} {maxFileSize : Nat} {p : Path}
    {r : Dialect × ModuleStructure} (h : fs.readStructure maxFileSize p = .ok r) :
    ∃ text, fs.readText maxFileSize p = .ok text ∧ p.dialect? = some r.1 ∧
      ModuleStructure.parse r.1 text = some r.2 := by
  unfold readStructure at h
  split at h
  · simp at h
  · split at h
    · simp at h
    · split at h
      · obtain rfl := Except.ok.inj h
        exact ⟨_, ‹_›, ‹_›, ‹_›⟩
      · simp at h

theorem readStructure_of_analyze {fs : FileSystem} {config : Config} {id : ModuleId} {leaf : Leaf}
    (h : (fs.analyze config id).leaf = .ok leaf) :
    ∃ r, fs.readStructure config.maxFileSize id.path = .ok r := by
  unfold analyze at h
  split at h
  · simp at h
  · exact ⟨_, ‹_›⟩

/-- A module whose analysis succeeds is a file that can be read. -/
theorem contents_of_analyze {fs : FileSystem} {config : Config} {id : ModuleId} {leaf : Leaf}
    (h : (fs.analyze config id).leaf = .ok leaf) : ∃ bytes, fs.contents id.path = .ok bytes := by
  obtain ⟨_, hr⟩ := readStructure_of_analyze h
  obtain ⟨_, ht, _⟩ := readText_of_readStructure hr
  exact contents_of_readText ht

end FileSystem

end ImportAtlas
