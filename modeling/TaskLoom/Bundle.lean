import TaskLoom.Composite.Draft
import TaskLoom.Description.Basic
import TaskLoom.Files.Tree
import TaskLoom.Hdl.Source

/-!
# Loading a program

A program comes from a description file and a directory of sources.  The module named after a task
belongs to that task: a leaf task needs one, and a composite task may have one as its skeleton.
-/

namespace TaskLoom

/-- A source file by its path below the source directory. -/
structure SourceFile where
  path : String
  text : String
  modules : List Module
  deriving Repr, Inhabited

/-- A loaded program with its sources. -/
structure Bundle where
  program : Program
  sourceDir : String
  sources : List SourceFile := []
  parts : Parts := {}
  deriving Repr, Inhabited

inductive LoadError where
  | noDescription
  | unreadableDescription (e : FileError)
  | description (file : String) (e : DescriptionError)
  | unreadableSource (e : FileError)
  | source (file : String) (e : SourceError)
  | definedTwice (file module : String)
  | missingModules
  deriving Repr

namespace LoadError

def kind? : LoadError → Option Kind
  | .noDescription => none
  | .unreadableDescription _ => none
  | .description _ e => some e.kind
  | .unreadableSource _ => none
  | .source _ e => some e.kind
  | .definedTwice .. => some .namingCollision
  | .missingModules => some .malformed

def message : LoadError → String
  | .noDescription => "no description was provided"
  | .unreadableDescription e => s!"read description: {e.message}"
  | .description file e => s!"{file}: {e.message}"
  | .unreadableSource e => s!"read rtl: {e.message}"
  | .source file e => s!"{file}: {e.message}"
  | .definedTwice file module =>
    s!"{file}: module {module} defined twice: {Kind.namingCollision.text}"
  | .missingModules => s!"rtl loading failed: {Kind.malformed.text}"

end LoadError

instance : Failure LoadError := ⟨LoadError.kind?, LoadError.message⟩

/-! ### Descriptions and sources -/

/-- The program that a description file describes. -/
def loadProgram (t : FileTree) (file : String) : Except LoadError Program :=
  match t.read file with
  | .error e => .error (.unreadableDescription e)
  | .ok text =>
    match Description.parse .double text with
    | .error e => .error (.description file e)
    | .ok p => .ok p

def readSource (t : FileTree) (dir rel : String) : Except LoadError SourceFile :=
  match t.read (Path.join dir rel) with
  | .error e => .error (.unreadableSource e)
  | .ok text =>
    match Source.parse text with
    | .error e => .error (.source rel e)
    | .ok ms => .ok ⟨rel, text, ms⟩

/-- The ending of source files. -/
def sourceSuffix : String := ".v"

/-- All source files below a directory. -/
def readSources (t : FileTree) (dir : String) : Except LoadError (List SourceFile) :=
  (t.scan dir sourceSuffix).mapM (readSource t dir)

/-! ### Modules of tasks -/

/-- Collects the modules of one file; each name must be new. -/
def collectModules (file : String) (known : List Module) :
    List Module → Except LoadError (List Module)
  | [] => .ok known
  | m :: ms =>
    if known.any (·.name == m.name) then .error (.definedTwice file m.name)
    else collectModules file (known ++ [m]) ms

/-- Collects the modules of all files, with a note on each file. -/
def collectSources (known : List Module) :
    List SourceFile → List LogEntry × Except LoadError (List Module)
  | [] => ([], .ok known)
  | s :: ss =>
    match collectModules s.path known s.modules with
    | .error e => ([], .error e)
    | .ok known =>
      let (log, result) := collectSources known ss
      (⟨rootLogger, .debug, "parsed rtl",
        [("file", .text s.path), ("modules", .number s.modules.length)]⟩ :: log, result)

/-- The modules and skeletons of the tasks of a program. -/
def attachModules (p : Program) (ms : List Module) : Parts :=
  let owned (wanted : Bool) : List (String × Module) := p.tasks.filterMap fun t =>
    if t.isComposite == wanted then (ms.find? (·.name == t.name)).map fun m => (t.name, m) else none
  ⟨owned false, owned true⟩

/-- The leaf tasks without a module. -/
def leavesWithoutModule (p : Program) (parts : Parts) : List String :=
  (p.tasks.filter fun t => !t.isComposite && (parts.module? t.name).isNone).map Task.name

/-- The program of a loaded description with the modules of a list of sources. -/
def assemble (p : Program) (dir : String) (sources : List SourceFile) :
    List LogEntry × Except LoadError Bundle :=
  match collectSources [] sources with
  | (log, .error e) => (log, .error e)
  | (log, .ok ms) =>
    let parts := attachModules p ms
    match leavesWithoutModule p parts with
    | [] => (log, .ok ⟨p, dir, sources, parts⟩)
    | missing =>
      let message (t : String) := s!"leaf task {t} has no module under {dir}"
      (log ++ Reporter.errorEntries (missing.map message), .error .missingModules)

/-- Loads a program.  Without a source directory only the description is read. -/
def load (t : FileTree) (file dir : String) : List LogEntry × Except LoadError Bundle :=
  if file == "" then ([], .error .noDescription)
  else match loadProgram t file with
    | .error e => ([], .error e)
    | .ok p =>
      if dir == "" then ([], .ok { program := p, sourceDir := dir })
      else match readSources t dir with
        | .error e => ([], .error e)
        | .ok sources => assemble p dir sources

/-- The sources to copy: those that define anything but composite tasks, or nothing at all. -/
def Bundle.passThrough (b : Bundle) : List SourceFile :=
  b.sources.filter fun s => s.modules.isEmpty || s.modules.any fun m =>
    match b.program.task? m.name with
    | some t => !t.isComposite
    | none => true

end TaskLoom
