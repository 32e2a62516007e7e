import SmellCheck.CommandLine.Run
/-!
# The program

Reads the files that a command names, runs the command, writes what it
changed and prints what it says.
-/

namespace SmellCheck

/-- What is at a path on the disk. -/
def readEntry (file : String) : IO FileReading := do
  try
    return .text (← IO.FS.readFile file)
  catch
    | .noFileOrDirectory _ _ _ => return .absent
    | _ => return .blocked

/-- The files of the disk with the given names, as a folder. The folders
that they are in count as present. -/
def readFolder (files : List String) : IO Folder :=
  files.foldlM (fun folder file => do
    let path := FilePath.ofText file
    let inside := (folder.makeFolders? path.dropLast).getD folder
    match ← readEntry file with
    | .text text => return inside.put path (.file text)
    | .blocked => return inside.put path .folder
    | .absent => return inside) .surroundings

/-- Writes the files whose text has changed. -/
def writeChanges (files : List String) (before after : Folder) : IO Unit :=
  files.forM fun file => do
    let path := FilePath.ofText file
    match after.entry? path with
    | some (.file text) => if before.entry? path ≠ some (.file text) then IO.FS.writeFile file text
    | _ => return

end SmellCheck

open SmellCheck

/-- Runs the program. -/
def main (args : List String) : IO UInt32 := do
  let runId := hexBytes (← IO.getRandomBytes 16).toList
  let files := match Command.read args with
    | .ok command => command.files
    | .error _ => []
  let before ← readFolder files
  let outcome := Command.runArguments before false { runId } args
  writeChanges files before outcome.folder
  IO.print outcome.stdout
  IO.eprint outcome.stderr
  match outcome.failure with
  | none => return 0
  | some e =>
    IO.eprintln e.message
    return 1
