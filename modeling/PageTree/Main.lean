import PageTree.Command.Program
import PageTree.Command.Usage

/-!
The command line. It copies what a run may look at from the disk into a file system, runs the
program, and writes back what the run has changed.
-/

namespace PageTree

namespace Disk

def item (place : Place) : IO (Option FileItem) := do
  let file := (← IO.currentDir) / Path.display (Workspace.folderPath place)
  if ← file.isDir then return some .folder
  if ← file.pathExists then return some (.file (String.fromUTF8? (← IO.FS.readBinFile file)))
  return none

def observe (files : FileSystem) (place : Place) : IO FileSystem := do
  if (files.find? place).isSome then return files
  match ← item place with
  | some item => return files.put place item
  | none => return files

/-- Copies everything on the way along the parts of a path. -/
def observeParts : FileSystem → Place → List (List Char) → IO FileSystem
  | files, place, [] => observe files place
  | files, place, part :: rest => do
    let files ← observe files place
    let next := if part = ['.'] then place
      else if part = ['.', '.'] then place.dropLast
      else place ++ [part]
    observeParts files next rest

def observePath (cwd : Place) (files : FileSystem) (path : Path) : IO FileSystem :=
  observeParts files (if path.isAbsolute then [] else cwd) (FileSystem.parts path)

def save (before : FileSystem) (entry : Place × FileItem) : IO Unit := do
  let (place, item) := entry
  if before.find? place = some item then return
  let file := (← IO.currentDir) / Path.display (Workspace.folderPath place)
  match item with
  | .folder => IO.FS.createDirAll file
  | .file (some text) => IO.FS.writeFile file text
  | .file none => return

end Disk

def Command.Action.paths : Command.Action → List Path
  | .transform arguments =>
    let targets := match arguments.output with
      | some folder => folder :: arguments.inputs.map (outputPath folder)
      | none => []
    arguments.inputs ++ targets
  | .convert arguments => arguments.input :: arguments.output.toList

/-- The part of the disk that a run may look at. -/
def observeAll (invocation : Command.Invocation) : IO Workspace := do
  let cwd : Place := FileSystem.parts (Path.ofText (← IO.currentDir).toString)
  let start ← Disk.observeParts ⟨[]⟩ [] cwd
  let files ← (Config.candidates cwd invocation.config).foldlM (Disk.observePath cwd) start
  let registry := match (Config.load ⟨files, cwd⟩ invocation.config).1 with
    | .ok config => config.registryPaths
    | .error _ => []
  return ⟨← (registry ++ invocation.action.paths).foldlM (Disk.observePath cwd) files, cwd⟩

def runProgram (invocation : Command.Invocation) : IO UInt32 := do
  let w ← observeAll invocation
  let outcome := Command.runInvocation w invocation
  outcome.files.items.forM (Disk.save w.files)
  IO.print outcome.printed
  let log ← IO.getStderr
  log.putStr (outcome.logText)
  match outcome.error with
  | none => return 0
  | some e =>
    log.putStr e.report
    return 1

end PageTree

def main (args : List String) : IO UInt32 := do
  match PageTree.Command.readArguments args with
  | .ok invocation => PageTree.runProgram invocation
  | .error e =>
    if e.isRequest then
      IO.print e.message
      return 0
    else
      IO.eprint e.message
      return 2
