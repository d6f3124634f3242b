import ImportAtlas.Command.Session
import ImportAtlas.FileSystem.Disk

/-!
# Command/Simulation — commands on a disk that is held in memory
-/

namespace ImportAtlas

/-- Writes a text to a file and makes the directories above it.  The directories stay if the file
cannot be written. -/
def Disk.save (d : Disk) (file : Path) (text : String) : Disk × Except Failure Unit :=
  let made : Except Failure Disk := match outputDir? file with
    | none => .ok d
    | some dir => (d.ensureDirs dir.text.length dir).mapError fun fault =>
        directoryFailure dir fault.message
  match made with
  | .error failure => (d, .error failure)
  | .ok d =>
    match d.writeFile file text.toUTF8 with
    | .error fault => (d, .error (writeFailure file fault.message))
    | .ok d => (d, .ok ())

/-- **The disk after a command, and what the command comes to.** -/
def Invocation.run (i : Invocation) (d : Disk) (environment : List (String × String)) :
    Disk × Conclusion :=
  let prepared := i.prepare d.toFileSystem environment
  match prepared.result, i.output with
  | .ok text, some file =>
    let (d, written) := d.save file text
    (d, prepared.conclude i.output written)
  | _, _ => (d, prepared.conclude i.output (.ok ()))

end ImportAtlas
