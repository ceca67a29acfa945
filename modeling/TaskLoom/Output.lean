import TaskLoom.Bundle
import TaskLoom.Composite.Names
import TaskLoom.Hdl.Render

/-!
# Writing a design

A design is written as one file per generated module, the sources to copy, and the primitives that
the modules use.  All files are collected before the first one is written, and no file is claimed
twice.
-/

namespace TaskLoom

/-- How a check of the written files by another tool ends. -/
inductive LintOutcome where
  | unavailable (reason : String)
  | exited (code : Nat)
  deriving DecidableEq, Repr

/-- A file to write, and what claims it. -/
structure OutputFile where
  name : String
  owner : String
  text : String
  deriving DecidableEq, Repr, Inhabited

inductive OutputError where
  | noDesign
  | noDirectory
  | claimedTwice (name first second : String)
  | noAssets (primitive : String)
  | unreadablePrimitive (primitive : String) (e : FileError)
  | outputDir (e : FileError)
  | parentDir (path : String) (e : FileError)
  | unwritable (path : String) (e : FileError)
  | lintUnavailable (reason : String)
  | lintFailed (code : Nat)
  deriving DecidableEq, Repr

namespace OutputError

def kind? : OutputError → Option Kind
  | .claimedTwice .. => some .namingCollision
  | _ => none

def message : OutputError → String
  | .noDesign => "backend: design is nil"
  | .noDirectory => "backend: an output directory is required"
  | .claimedTwice name first second =>
    s!"backend: {name} is produced by both {first} and {second}: {Kind.namingCollision.text}"
  | .noAssets primitive => s!"backend: asset directory required for primitive {primitive}"
  | .unreadablePrimitive primitive e => s!"backend: read primitive {primitive}: {e.message}"
  | .outputDir e => s!"backend: create output dir: {e.message}"
  | .parentDir path e => s!"backend: create dir for {path}: {e.message}"
  | .unwritable path e => s!"backend: write {path}: {e.message}"
  | .lintUnavailable reason => s!"backend: resolve verilator: {reason}"
  | .lintFailed code => s!"backend: lint failed: exit status {code}"

end OutputError

instance : Failure OutputError := ⟨OutputError.kind?, OutputError.message⟩

/-- The files and the log while a design is written. -/
structure Desk where
  files : FileTree
  log : List LogEntry := []
  deriving Repr

abbrev Writing (α : Type) := EStateM OutputError Desk α

/-- Where the primitives come from: a directory, or a fixed set of texts. -/
inductive Assets where
  | none
  | dir (path : String)
  | texts (all : List (String × String))
  deriving DecidableEq, Repr

namespace Writing

def note (level : LogLevel) (message : String) (fields : List (String × LogValue)) : Writing Unit :=
  modify fun d => { d with log := d.log ++ [⟨rootLogger ++ ".backend", level, message, fields⟩] }

/-! ### Collecting the files -/

/-- Adds a file, if no file of its name was claimed before. -/
def claim (claimed : List OutputFile) (f : OutputFile) : Writing (List OutputFile) :=
  match claimed.find? (·.name == f.name) with
  | some g => throw (.claimedTwice f.name g.owner f.owner)
  | none => return claimed ++ [f]

def moduleFile (m : Module) : OutputFile :=
  ⟨m.name ++ sourceSuffix, "module " ++ m.name, m.render⟩

def claimModules (claimed : List OutputFile) : List Module → Writing (List OutputFile)
  | [] => return claimed
  | m :: ms => do claimModules (← claim claimed (moduleFile m)) ms

/-- Whether a source defines a module that is generated. -/
def isReplaced (generated : List String) (s : SourceFile) : Bool :=
  s.modules.any fun m => generated.contains m.name

/-- A source without the modules that are generated.  A source without such modules is kept as it
is. -/
def keptText (generated : List String) (s : SourceFile) : String :=
  if isReplaced generated s then
    let kept := s.modules.filter fun m => !generated.contains m.name
    String.intercalate "\n" (kept.map Module.verbatim)
  else s.text

def claimSources (generated : List String) (claimed : List OutputFile) :
    List SourceFile → Writing (List OutputFile)
  | [] => return claimed
  | s :: ss => do
    if isReplaced generated s then
      note .warn "dropping regenerated modules from source" [("file", .text (Path.baseName s.path))]
    let claimed ← claim claimed ⟨s.path, "source " ++ s.path, keptText generated s⟩
    claimSources generated claimed ss

/-- The primitives and their files, in order. -/
def primitives : List (String × String) :=
  [(channelPrimitive, "async_mmap.v"), (fifoPrimitive, "fifo.v")]

/-- The primitives that a design uses. -/
def usedPrimitives (d : Design) : List (String × String) :=
  primitives.filter fun (name, _) => d.modules.any fun m => m.cells.any (·.module == name)

/-- The text of a primitive. -/
def primitiveText (assets : Assets) (name file : String) : Writing String := do
  match assets with
  | .none => throw (.noAssets name)
  | .dir path =>
    match (← get).files.read (Path.join path file) with
    | .ok text => return text
    | .error e => throw (.unreadablePrimitive name e)
  | .texts all =>
    match all.find? (·.1 == file) with
    | some (_, text) => return text
    | none => throw (.noAssets name)

def claimPrimitives (assets : Assets) (claimed : List OutputFile) :
    List (String × String) → Writing (List OutputFile)
  | [] => return claimed
  | (name, file) :: rest => do
    let text ← primitiveText assets name file
    claimPrimitives assets (← claim claimed ⟨file, "primitive " ++ name, text⟩) rest

/-- All files of a design. -/
def collect (d : Design) (sources : List SourceFile) (assets : Assets) :
    Writing (List OutputFile) := do
  let claimed ← claimModules [] d.modules
  let claimed ← claimSources (d.modules.map Module.name) claimed sources
  claimPrimitives assets claimed (usedPrimitives d)

/-! ### Writing the files -/

def outputPath (dir : String) (f : OutputFile) : String := Path.join dir f.name

def writeFile (path text : String) : Writing Unit := do
  match (← get).files.ensureDir (Path.parent path) with
  | .error e => throw (.parentDir path e)
  | .ok t =>
    modify fun d => { d with files := t }
    match t.write path text with
    | .error e => throw (.unwritable path e)
    | .ok t =>
      modify fun d => { d with files := t }
      note .debug "wrote file" [("path", .text path)]

def writeFiles (dir : String) : List OutputFile → Writing Unit
  | [] => return
  | f :: fs => do
    writeFile (outputPath dir f) f.text
    writeFiles dir fs

def makeOutputDir (dir : String) : Writing Unit := do
  match (← get).files.ensureDir dir with
  | .error e => throw (.outputDir e)
  | .ok t => modify fun d => { d with files := t }

def lint : Option LintOutcome → Writing Unit
  | none => return
  | some (.unavailable reason) => throw (.lintUnavailable reason)
  | some (.exited 0) => return
  | some (.exited code) => throw (.lintFailed code)

end Writing

/-- The paths that were written, in order, and that of the top module among them. -/
structure Written where
  topPath : String
  paths : List String
  deriving DecidableEq, Repr

/-- Writes a design with the sources to copy. -/
def writeDesign (design : Option Design) (sources : List SourceFile) (dir : String)
    (assets : Assets) (lint : Option LintOutcome) : Writing Written := do
  match design with
  | none => throw .noDesign
  | some d =>
    match d.top with
    | none => throw .noDesign
    | some top =>
      if dir == "" || dir == "-" then throw .noDirectory
      let files ← Writing.collect d sources assets
      Writing.makeOutputDir dir
      Writing.writeFiles dir files
      Writing.lint lint
      let paths := files.map (Writing.outputPath dir)
      return ⟨paths.getD top "", paths⟩

end TaskLoom
