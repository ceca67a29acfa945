import TaskLoom.Command.Help

/-!
# The program

Takes a picture of the files that a run needs, runs it, and carries out what it changed.  The
settings file may name further paths, so the picture is taken in two steps.
-/

namespace TaskLoom.Disk

/-- Adds what stands at a path, with everything below it, to a tree. -/
partial def addPlace (t : FileTree) (path : String) : IO FileTree := do
  let place := (← IO.currentDir) / path
  if ← place.isDir then
    let mut t := t.addDir (Path.clean path)
    for entry in ← place.readDir do
      t ← addPlace t (path ++ "/" ++ entry.fileName)
    return t
  else if ← place.pathExists then
    return t.put (Path.clean path) (Text.ofBytes (← IO.FS.readBinFile place).data.toList)
  else
    return t

/-- Adds the directories above a path, or the file that stands where one of them should. -/
def addAbove (t : FileTree) (path : String) : IO FileTree := do
  let mut t := t
  for dir in FileTree.above (Path.clean path) (Path.elements path).length do
    let place := (← IO.currentDir) / dir
    if ← place.isDir then
      t := t.addDir dir
    else if ← place.pathExists then
      t ← addPlace t dir
  return t

def addPaths (t : FileTree) (paths : List String) : IO FileTree :=
  paths.foldlM (fun t p => do addPlace (← addAbove t p) p) t

/-- Makes the directories and writes the files by which two trees differ. -/
def carryOut (before after : FileTree) : IO Unit := do
  let here ← IO.currentDir
  for dir in after.dirs do
    unless before.isDir dir do IO.FS.createDirAll (here / dir)
  for (path, text) in before.changes after do
    IO.FS.writeFile (here / path) text

/-- No other program can be started from here, so every linter is out of reach. -/
def linter (path : String) : LintOutcome :=
  .unavailable ("stat " ++ path ++ ": no such file or directory")

end TaskLoom.Disk

def main (args : List String) : IO UInt32 := do
  let start : TaskLoom.FileTree := { storage := .disk }
  let known ← TaskLoom.Disk.addPaths start (TaskLoom.inputPaths start args)
  let before ← TaskLoom.Disk.addPaths known (TaskLoom.inputPaths known args)
  let outcome := TaskLoom.run TaskLoom.Disk.linter before args
  TaskLoom.Disk.carryOut before outcome.files
  IO.print outcome.stdout
  IO.eprint outcome.stderr
  match outcome.error with
  | none => return 0
  | some e =>
    IO.eprint e.preamble
    IO.eprintln e.message
    return 1
