import ImportAtlas.Command.Arguments
import ImportAtlas.Command.Progress
import ImportAtlas.Document.Writer

/-!
# Command/Session — carrying out a command

The result is made from the disk alone.  Where it goes to a file, that file is written between
`Invocation.prepare` and `Preparation.conclude`.
-/

namespace ImportAtlas

open Log

/-- Why a command fails: the messages of the failure, the outermost first. -/
abbrev Failure := List String

/-- The failure that an error of a build is. -/
def BuildError.failure (e : BuildError) : Failure :=
  match e with
  | unreadable _ source => [e.message, source.message]
  | e => [e.message]

/-- What a command has come to before anything is written. -/
structure Preparation where
  messages : List Message
  /-- The text of the result. -/
  result : Except Failure String

/-- What a command comes to. -/
structure Conclusion where
  messages : List Message
  /-- What is printed. -/
  printed : String
  failure : Option Failure

/-- The exit code of the program. -/
def Conclusion.exitCode (c : Conclusion) : Nat := if c.failure.isSome then 1 else 0

/-! ## Carrying out -/

/-- The text of a document, as it is asked for. -/
def Invocation.render (i : Invocation) (document : Json) : String :=
  if i.compact then document.compact else document.pretty

/-- Builds what the command asks for. -/
def Invocation.build (i : Invocation) (fs : FileSystem) (config : Config) : Preparation :=
  match i.command with
  | .tree =>
    let messages := walkMessages fs config i.path
    match fs.dependencyTree config i.path with
    | .ok t => ⟨messages ++ treeMessages t, .ok (i.render t.toJson)⟩
    | .error e =>
      ⟨messages, .error (s!"Failed to build dependency tree for {i.path}" :: e.failure)⟩
  | .graph =>
    let messages := explorationMessages fs config i.path
    match fs.moduleGraph config i.path with
    | .ok g => ⟨messages ++ graphMessages g, .ok (i.render g.toJson)⟩
    | .error e => ⟨messages, .error (s!"Failed to build module graph from {i.path}" :: e.failure)⟩

/-- **All of a command but the writing of a file.** -/
def Invocation.prepare (i : Invocation) (fs : FileSystem) (environment : List (String × String)) :
    Preparation :=
  match Config.load fs environment i.config with
  | .error e =>
    let messages := match e with
      | .invalid => configMessages fs i.config
      | .notFound _ => []
    ⟨messages, .error ["Failed to load configuration", e.message]⟩
  | .ok config =>
    let built := i.build fs config
    ⟨configMessages fs i.config ++ loadedMessage :: built.messages, built.result⟩

/-- The end of a command, once its result is written if it goes to a file. -/
def Preparation.conclude (p : Preparation) (output : Option Path)
    (written : Except Failure Unit) : Conclusion :=
  match p.result, output, written with
  | .error failure, _, _ => ⟨p.messages, "", some failure⟩
  | .ok text, none, _ => ⟨p.messages, text ++ "\n", none⟩
  | .ok _, some file, .ok () =>
    ⟨p.messages ++ [⟨.info, program ++ "::commands::utils", s!"Wrote {file}", []⟩], "", none⟩
  | .ok _, some _, .error failure => ⟨p.messages, "", some failure⟩

/-- The failure to make the directory of a file. -/
def directoryFailure (dir : Path) (reason : String) : Failure :=
  [s!"Failed to create directory {dir}", reason]

/-- The failure to write a file. -/
def writeFailure (file : Path) (reason : String) : Failure := [s!"Failed to write {file}", reason]

/-- The directory that is made for a file before the file is written. -/
def outputDir? (file : Path) : Option Path := file.parent?.filter fun dir => dir.text != ""

/-- The messages of the conclusion that a filter shows. -/
def Conclusion.shown (c : Conclusion) (filter : Filter) : List Message :=
  c.messages.filter filter.shows

end ImportAtlas
