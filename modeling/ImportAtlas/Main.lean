import ImportAtlas.Command.Session
import ImportAtlas.FileSystem.Memory

/-!
# Main — the program

What a command may ask about the disk is recorded first; then the command is carried out on the
record.  Files are recorded as they are come to: a module, the places where its imports may lead,
and so on with the modules that they lead to.
-/

namespace ImportAtlas

open Log

/-- What the system says about an error. -/
def systemReason (e : IO.Error) : String :=
  match e with
  | .permissionDenied _ code details | .inappropriateType _ code details
  | .otherError code details => s!"{details} (os error {code})"
  | e => toString e

/-- An error of the system about a path. -/
def systemFault (action : String) (p : Path) (e : IO.Error) : Fault :=
  match e with
  | .noFileOrDirectory .. => .notFound
  | e => .io s!"Failed to {action} {p}: {systemReason e}"

/-- Records what a path leads to; the bytes of a file only if they are wanted.  What is recorded
already stays as it is if they are not. -/
def recordPath (wantBytes : Bool) (m : Memory) (p : Path) : IO Memory := do
  if !wantBytes && (m.find? p).isSome then return m
  let place := (← IO.currentDir) / p.text
  match ← place.metadata.toBaseIO with
  | .error (.noFileOrDirectory ..) => return m
  | .error e =>
    return m.put p.clean { Memory.Entry.directory with
      metadataFault := some (systemFault "get metadata for" p e) }
  | .ok metadata =>
    match metadata.type with
    | .dir => return m.put p.clean .directory
    | .file =>
      let entry : Memory.Entry :=
        { kind := .file .empty, shownSize := some metadata.byteSize.toNat }
      if !wantBytes then return m.put p.clean entry
      match ← (IO.FS.readBinFile place).toBaseIO with
      | .ok bytes => return m.put p.clean { entry with kind := .file bytes }
      | .error e => return m.put p.clean { entry with readFault := some (systemFault "read" p e) }
    | _ => return m.put p.clean { kind := .special .empty }

/-- Records a module and the places where its imports may lead. -/
def recordModule (config : Config) (m : Memory) (p : Path) : IO Memory := do
  let m ← recordPath true m p
  match m.toFileSystem.readStructure config.maxFileSize p with
  | .ok (_, contents) =>
    (contents.imports.flatMap fun i => lookedUp p i.source).foldlM (recordPath false) m
  | .error _ => return m

/-- Records modules and all that they lead to. -/
partial def recordGraph (config : Config) (m : Memory) (seen todo : List ModuleId) : IO Memory := do
  match todo with
  | [] => return m
  | id :: todo =>
    if seen.contains id then recordGraph config m seen todo
    else
      let m ← recordModule config m id.path
      let targets := (m.toFileSystem.analyze config id).targets.filter (·.path.isModuleFile)
      recordGraph config m (id :: seen) (targets ++ todo)

/-- Records a directory and all that is below it. -/
partial def recordTree (config : Config) (m : Memory) (dir : Path) : IO Memory := do
  let m ← recordPath false m dir
  match ← ((← IO.currentDir) / dir.text).readDir.toBaseIO with
  | .error e => return m.put dir.clean { Memory.Entry.directory with
      readFault := some (systemFault "read directory" dir e) }
  | .ok entries =>
    let m ← entries.foldlM (fun m entry => recordPath false m (dir.child entry.fileName)) m
    match m.toFileSystem.listing config dir with
    | .error _ => return m
    | .ok listing =>
      let m ← listing.files.foldlM (fun m id => recordModule config m id.path) m
      listing.subdirs.foldlM (recordTree config) m

/-- Records what the build that a command asks for may look up. -/
def recordBuild (i : Invocation) (config : Config) (m : Memory) : IO Memory := do
  match m.toFileSystem.absolute i.path with
  | .error _ => return m
  | .ok p =>
    match i.command with
    | .graph => recordGraph config m [] [.ofPath p]
    | .tree =>
      let m ← recordPath false m p
      if m.toFileSystem.isDir p then recordTree config m p else return m

/-- The variables of the environment. -/
def environment : IO (List (String × String)) := do
  match ← (IO.FS.readBinFile "/proc/self/environ").toBaseIO with
  | .error _ => return []
  | .ok bytes =>
    return ((String.fromUTF8? bytes).getD "").toList.splitOn '\x00' |>.filterMap fun line =>
      let name := line.takeWhile (· != '=')
      if line.length ≤ name.length then none
      else some (String.ofList name, String.ofList (line.drop (name.length + 1)))

/-- Writes a text to a file and makes the directories above it. -/
def saveText (file : Path) (text : String) : IO (Except Failure Unit) := do
  if let some dir := outputDir? file then
    if let .error e ← (IO.FS.createDirAll dir.text).toBaseIO then
      return .error (directoryFailure dir (systemReason e))
  match ← (IO.FS.writeFile file.text text).toBaseIO with
  | .ok () => return .ok ()
  | .error e => return .error (writeFailure file (systemReason e))

/-- A message as it is shown. -/
def showMessage (colour : Bool) (m : Message) : String :=
  let level := match m.level with
    | .off => ""
    | .error => "ERROR"
    | .warn => " WARN"
    | .info => " INFO"
    | .debug => "DEBUG"
    | .trace => "TRACE"
  if colour then s!"\x1b[32m{level}\x1b[0m {m.text}" else s!"{level} {m.text}"

/-- A failure as it is shown. -/
def showFailure : Failure → String
  | [] => "Error"
  | outer :: causes =>
    String.join (s!"Error: {outer}" :: causes.map fun cause => s!"\n  caused by: {cause}")

/-- How the program is used. -/
def usageText : String :=
  "\n".intercalate
    ["Usage: modtree [OPTIONS] <COMMAND>",
      "",
      "Commands:",
      "  tree DIR    Print the modules below a directory",
      "  graph FILE  Print the modules that are reached from an entry module",
      "  help        Print this message",
      "",
      "Options:",
      "  -v, --verbose        Show more messages",
      "  -q, --quiet          Show errors only",
      "      --no-color       Show messages without colours",
      "  -c, --config FILE    Read the configuration from a file",
      "      --compact        Write the result on one line (behind a command)",
      "  -o, --output FILE    Write the result to a file (behind a command)",
      "  -h, --help           Print this message",
      "  -V, --version        Print the version"]

/-- Carries out a command on the disk. -/
def Invocation.perform (i : Invocation) : IO Conclusion := do
  let vars ← environment
  let home : Path := ⟨(← IO.currentDir).toString⟩
  let file := i.config.getD Config.defaultFile
  let m ← (file :: Config.places home file).foldlM (recordPath true) (Memory.bare (some home))
  let m ← match Config.load m.toFileSystem vars i.config with
    | .ok config => recordBuild i config m
    | .error _ => pure m
  let prepared := i.prepare m.toFileSystem vars
  let written ← match prepared.result, i.output with
    | .ok text, some file => saveText file text
    | _, _ => pure (.ok ())
  return prepared.conclude i.output written

end ImportAtlas

open ImportAtlas in
/-- **The program**: reads the command line and carries out the command. -/
def main (args : List String) : IO UInt32 := do
  match Invocation.parse args with
  | .error .displayHelp =>
    IO.println usageText
    return 0
  | .error .displayVersion =>
    IO.print Arguments.versionText
    return 0
  | .error e =>
    IO.eprintln usageText
    return e.exitCode.toUInt32
  | .ok i =>
    let conclusion ← i.perform
    let logText := (← environment).lookup "RUST_LOG"
    for m in conclusion.shown (.of i.verbose i.quiet logText) do
      IO.eprintln (showMessage (!i.noColor) m)
    IO.print conclusion.printed
    if let some failure := conclusion.failure then IO.eprintln (showFailure failure)
    return conclusion.exitCode.toUInt32
