import Relay.Command.Run

/-!
# The program

Reads the files that a command line can reach, runs it, and writes what the run
leaves.
-/

namespace Relay.Program

open Command

/-- Reads what stands at a path, with all that stands below it. -/
partial def readTree (place : List String) (files : Files) (path : String) :
    IO Files := do
  let real ← IO.FS.realPath path
  if ← real.isDir then
    let mut files := files.put place .directory
    for entry in ← real.readDir do
      files ← readTree (place ++ [entry.fileName]) files entry.path.toString
    return files
  else if ← real.pathExists then
    let modified := (← real.metadata).modified.sec
    return files.put place (.file (← IO.FS.readBinFile path) modified)
  else return files

/-- Reads what stands at a path from the command line, unless it has been read
or is missing. -/
def readGiven (files : Files) (path : String) : IO Files := do
  let place := files.placeOf (Path.ofString path)
  if (files.entryAt? place).isSome then return files
  let files' := files.makeDirectories place.dropLast
  try readTree place files' (Path.text ⟨.root, place⟩)
  catch _ => return files

/-- The paths that a request names outside of its workspace. -/
def pathsOf (r : Request) : List String :=
  [r.workspace] ++ r.endpoint.toList ++ r.config.toList

/-- The files that a command line can reach. -/
def filesFor (arguments : List String) : IO Files := do
  let here := (← IO.currentDir).toString
  let files : Files := ⟨[], (Path.ofString here).names⟩
  match readInvocation arguments with
  | .analyze r =>
      (pathsOf r).foldlM readGiven (← readTree files.current files here)
  | _ => return files

/-- Writes the files that a request asks for. -/
def writeFiles (r : Request) (files : Files) : IO Unit := do
  for (_, path) in r.outputs do
    let place := files.placeOf (Path.ofString path)
    match files.entryAt? place with
    | some (.file bytes _) =>
      IO.FS.createDirAll (Path.text ⟨.root, place.dropLast⟩)
      IO.FS.writeBinFile (Path.text ⟨.root, place⟩) bytes
    | _ => pure ()

/-- Runs a command line and gives the code that the program ends with. -/
def execute (arguments : List String) : IO UInt32 := do
  let outcome := run (← filesFor arguments) arguments
  match readInvocation arguments with
  | .analyze r => writeFiles r outcome.files
  | _ => pure ()
  (← IO.getStdout).putStr outcome.output
  (← IO.getStderr).putStr outcome.errors
  match outcome.status with
  | .exit code => return UInt32.ofNat code
  | .broken fault =>
    IO.eprintln fault.message
    return 1

end Relay.Program

/-- The program. -/
def main (arguments : List String) : IO UInt32 :=
  Relay.Program.execute arguments
