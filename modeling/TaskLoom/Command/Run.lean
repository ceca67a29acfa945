import TaskLoom.Command.Arguments
import TaskLoom.Composite.Generate
import TaskLoom.Graph.Check
import TaskLoom.Graph.Tree
import TaskLoom.Hdl.Outline
import TaskLoom.Output
import TaskLoom.Primitive

/-!
# Running commands

`compile` writes the design of a program, `lint` only checks the program, and `graph` draws it.  A
command works on a file tree and leaves behind a changed tree, a text for the standard output and a
log, all of which stay even if it fails on the way.
-/

namespace TaskLoom

inductive Command where
  | compile
  | lint
  | graph
  deriving DecidableEq, Repr

namespace Command

def all : List Command := [.compile, .lint, .graph]

def name : Command → String
  | .compile => "compile"
  | .lint => "lint"
  | .graph => "graph"

def ofName? (s : String) : Option Command := all.find? (·.name == s)

def flags : Command → List (Flag Arguments)
  | .compile => Arguments.compileFlags
  | .lint => Arguments.lintFlags
  | .graph => Arguments.graphFlags

end Command

inductive CommandError where
  | noCommand
  | unknownCommand (name : String)
  | flags (command : Command) (e : FlagError)
  | positional
  | incomplete (command : Command)
  | settings (e : Settings.Error)
  | load (e : LoadError)
  | check (e : CheckError)
  | compose (e : ComposeError)
  | drawing (e : GraphError)
  | noOutput
  | unknownFormat (name : String)
  | unwritable (e : FileError)
  | output (e : OutputError)
  deriving Repr

namespace CommandError

def kind? : CommandError → Option Kind
  | .load e => e.kind?
  | .check e => e.kind?
  | .compose e => Failure.kind? e
  | .drawing e => Failure.kind? e
  | .output e => e.kind?
  | _ => none

def message : CommandError → String
  | .noCommand => "missing command"
  | .unknownCommand name => s!"unknown command: {name}"
  | .flags _ e => e.message
  | .positional => "compile takes no positional arguments"
  | .incomplete .compile => "compile requires -desc and -rtl"
  | .incomplete c => s!"{c.name} requires -desc"
  | .settings e => e.message
  | .load e => e.message
  | .check e => e.message
  | .compose e => e.message
  | .drawing e => Failure.message e
  | .noOutput => "verilog emission requires -o"
  | .unknownFormat name => s!"unknown emit format: {name}"
  | .unwritable e => e.message
  | .output e => e.message

/-- The command whose flags are explained after the error, or all commands. -/
inductive Help where
  | none
  | commands
  | flagsOf (c : Command)
  deriving DecidableEq, Repr

def help : CommandError → Help
  | .noCommand => .commands
  | .unknownCommand _ => .commands
  | .flags c _ => .flagsOf c
  | .positional => .flagsOf .compile
  | .incomplete c => .flagsOf c
  | _ => .none

end CommandError

instance : Failure CommandError := ⟨CommandError.kind?, CommandError.message⟩

/-- What a command changes. -/
structure Session where
  files : FileTree
  stdout : String := ""
  log : List LogEntry := []
  deriving Repr

abbrev Running (α : Type) := EStateM CommandError Session α

namespace Running

def note (entries : List LogEntry) : Running Unit :=
  modify fun s => { s with log := s.log ++ entries }

def print (text : String) : Running Unit := modify fun s => { s with stdout := s.stdout ++ text }

def ofExcept {ε α : Type} (wrap : ε → CommandError) : Except ε α → Running α
  | .ok a => return a
  | .error e => throw (wrap e)

/-! ### Programs -/

/-- The program of a description file. -/
def readProgram (file : String) : Running Program := do
  ofExcept .load (loadProgram (← get).files file)

/-- Checks a program, and reports every issue. -/
def checkProgram (p : Program) : Running Unit := do
  match Program.check (some p) with
  | .ok _ => return
  | .error (.issues found) =>
    note (Reporter.errorEntries (found.map Issue.message))
    throw (.check (.issues found))
  | .error e => throw (.check e)

/-- Loads, checks and generates. -/
def buildDesign (o : Options) (file dir : String) : Running (Design × Bundle) := do
  let (log, loaded) := TaskLoom.load (← get).files file dir
  note log
  let b ← ofExcept .load loaded
  checkProgram b.program
  let c := generate o b.program b.parts
  note c.log
  return (← ofExcept .compose c.result, b)

/-! ### Output -/

/-- Whether a path stands for the standard output. -/
def isStdout (path : String) : Bool := path == "" || path == "-"

/-- Writes a text to a file or to the standard output. -/
def emitText (path text : String) : Running Unit := do
  if isStdout path then print text
  else
    let t ← ofExcept .unwritable ((← get).files.write path text)
    modify fun s => { s with files := t }

/-- Takes over what the writing of a design did. -/
def adopt {α : Type} (act : Writing α) : Running α := do
  match act { files := (← get).files } with
  | .ok a d =>
    modify fun s => { s with files := d.files, log := s.log ++ d.log }
    return a
  | .error e d =>
    modify fun s => { s with files := d.files, log := s.log ++ d.log }
    throw (.output e)

/-- Writes a design as sources.  `linter` tells how a linter at a path would end. -/
def emitSources (linter : String → LintOutcome) (a : Arguments) (d : Design) (b : Bundle) :
    Running Unit := do
  if isStdout a.output then throw .noOutput
  let assets := if a.assetDir == "" then Assets.texts Primitive.files else .dir a.assetDir
  let lint := if a.lint then some (linter a.lintPath) else none
  let w ← adopt (writeDesign (some d) b.passThrough a.output assets lint)
  note [⟨rootLogger, .info, "design written",
    [("top", .text w.topPath), ("files", .number w.paths.length)]⟩]

def emit (linter : String → LintOutcome) (a : Arguments) (d : Design) (b : Bundle) : Running Unit :=
  if a.format == "ir" then emitText a.output d.outline
  else if a.format == "verilog" then emitSources linter a d b
  else throw (.unknownFormat a.format)

/-! ### Commands -/

/-- Fills in the settings file, if there is one. -/
def applySettings (r : FlagReading Arguments) : Running Arguments := do
  if r.state.settingsFile == "" then return r.state
  let s ← ofExcept .settings (Settings.load (← get).files r.state.vars r.state.settingsFile)
  return r.state.withSettings r.given s

def compile (linter : String → LintOutcome) (r : FlagReading Arguments) : Running Unit := do
  if !r.rest.isEmpty then throw .positional
  if r.state.description == "" || r.state.sourceDir == "" then throw (.incomplete .compile)
  let a ← applySettings r
  let (d, b) ← buildDesign a.options a.description a.sourceDir
  emit linter a d b

def lint (a : Arguments) : Running Unit := do
  if a.description == "" then throw (.incomplete .lint)
  if a.sourceDir == "" then checkProgram (← readProgram a.description)
  else
    let _ ← buildDesign {} a.description a.sourceDir

def graph (a : Arguments) : Running Unit := do
  if a.description == "" then throw (.incomplete .graph)
  let p ← readProgram a.description
  checkProgram p
  let text ← ofExcept .drawing p.drawing
  note [⟨rootLogger, .debug, "rendered hierarchy", [("top", .text p.top)]⟩]
  print text

def command (linter : String → LintOutcome) (r : FlagReading Arguments) : Command → Running Unit
  | .compile => compile linter r
  | .lint => lint r.state
  | .graph => graph r.state

end Running

/-- What a run leaves behind. -/
structure Outcome where
  files : FileTree
  stdout : String := ""
  /-- The log as it is written. -/
  stderr : String := ""
  error : Option CommandError := none
  deriving Repr

def Outcome.ofResult (sink : LogSink) : EStateM.Result CommandError Session Unit → Outcome
  | .ok _ s => ⟨s.files, s.stdout, sink.writeAll s.log, none⟩
  | .error e s => ⟨s.files, s.stdout, sink.writeAll s.log, some e⟩

/-- Runs a command with its arguments. -/
def Command.run (linter : String → LintOutcome) (t : FileTree) (c : Command) (args : List String) :
    Outcome :=
  match readFlags c.flags [] {} args with
  | .error e => { files := t, error := some (.flags c e) }
  | .ok r => .ofResult r.state.sink (Running.command linter r c { files := t })

/-- Runs the program: the first argument names the command. -/
def run (linter : String → LintOutcome) (t : FileTree) : List String → Outcome
  | [] => { files := t, error := some .noCommand }
  | name :: args =>
    match Command.ofName? name with
    | none => { files := t, error := some (.unknownCommand name) }
    | some c => c.run linter t args

end TaskLoom
