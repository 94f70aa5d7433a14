import Std.Time.DateTime.Timestamp
import BrailleScript.CommandLine

/-!
# The program

Reads the files a command needs, runs it and writes what it leaves.
-/

namespace BrailleScript.CommandLine

/-- The files at some paths; what is not there is left out. -/
def loadFiles (paths : List String) : IO Files :=
  paths.foldlM (fun (files : Files) (path : String) => do
    try
      let text ← IO.FS.readFile path
      return { files with contents := files.contents ++ [(Path.parts path, text)] }
    catch
      | .noFileOrDirectory .. => return files
      | e =>
        let refusal := FileError.other (toString e)
        return { files with unreadable := files.unreadable ++ [(Path.parts path, refusal)] }) {}

/-- Writes a file and the directories above it. -/
def storeFile (files : Files) (path : String) : IO Unit := do
  match files.read path with
  | .ok text =>
    if let some (dir, _) := Path.splitName? path.toList then
      if !dir.isEmpty then IO.FS.createDirAll (String.ofList dir)
    IO.FS.writeFile path text
  | .error _ => return ()

/-- Runs the command line on the files of the system. -/
def runMain (args : List String) : IO UInt32 := do
  let time ← Std.Time.Timestamp.now
  let s : Surroundings :=
    { home := ← IO.getEnv "HOME"
      now := ⟨time.toNanosecondsSinceUnixEpoch.val⟩
      -- out of reach for any run
      bound := 1 <<< 62 }
  let paths :=
    match parseArgs args with
    | .ok i => inputs s i
    | .error _ => []
  let (code, console) := run s args { files := ← loadFiles paths }
  IO.print console.stdout
  IO.eprint console.stderr
  try
    for path in console.written do
      storeFile console.files path
    return code
  catch e =>
    IO.eprint (Complaint.text ⟨"writing files", [toString e]⟩)
    return 1

end BrailleScript.CommandLine

/-- Runs a command of the command line. -/
def main (args : List String) : IO UInt32 :=
  BrailleScript.CommandLine.runMain args
