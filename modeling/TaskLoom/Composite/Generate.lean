import TaskLoom.Composite.Child
import TaskLoom.Composite.Stream
import TaskLoom.Graph.Order

/-!
# Generating the composite modules

The composite tasks below the top one are generated children first, so that every parent finds the
modules of its children.
-/

namespace TaskLoom

/-- Why no design is generated. -/
inductive ComposeError where
  | reference (e : GraphError)
  | notComposite (task : String)
  | childWithoutModule (task placed : String)
  | inTask (task : String) (e : WiringError)
  deriving DecidableEq, Repr

namespace ComposeError

def kind : ComposeError → Kind
  | .inTask _ e => e.kind
  | _ => .malformed

def message : ComposeError → String
  | .reference e => e.message
  | .notComposite t => s!"task {t} is not composite: {Kind.malformed.text}"
  | .childWithoutModule t i => s!"task {t}: child {i} has no module: {Kind.malformed.text}"
  | .inTask t e => s!"task {t}: {e.message}"

end ComposeError

instance : Failure ComposeError := ⟨fun e => some e.kind, ComposeError.message⟩

/-- Everything in the module of a composite task. -/
def Plan.build (p : Plan) : Build Unit := do
  p.declareInterface
  declareControl p.options.registerLevel
  p.task.fifos.forM p.addStream
  let finished ← p.addChildren p.children
  p.addAdapters
  Build.add ((controlLogic p.options.registerLevel finished).map .logic)
  Build.note p.task.name .debug "generated module"
    [("instances", .number p.children.length), ("fifos", .number p.task.fifoTable.length)]

/-- The instances of a task with the modules of their tasks. -/
def placements (parts : Parts) (task : String) :
    List Instance → Except ComposeError (List Placement)
  | [] => .ok []
  | i :: is =>
    match parts.module? i.task.name with
    | none => .error (.childWithoutModule task i.name)
    | some m => do return ⟨i, m⟩ :: (← placements parts task is)

/-- What the module of a task is built from. -/
def plan (o : Options) (program : Program) (parts : Parts) (t : Task) :
    Except ComposeError Plan := do
  if !t.isComposite then throw (.notComposite t.name)
  match program.instances t with
  | .error e => throw (.reference e)
  | .ok placed => return ⟨o, program, parts, t, ← placements parts t.name placed⟩

/-- The module of one composite task, for which the modules of its children are at hand, and what
was logged on the way. -/
def generateTask (o : Options) (program : Program) (parts : Parts) (t : Task) :
    List LogEntry × Except ComposeError Module :=
  match plan o program parts t with
  | .error e => ([], .error e)
  | .ok p =>
    match p.build { module := .new t.name } with
    | .ok _ d => (d.log, .ok d.module)
    | .error e d => (d.log, .error (.inTask t.name e))

/-- What a generation leaves behind: the log, the modules at hand afterwards, and the generated
modules or the failure. -/
structure Generation where
  log : List LogEntry
  parts : Parts
  result : Except ComposeError (List Module)

/-- Generates tasks one after the other; each module is at hand for the next task. -/
def generateTasks (o : Options) (program : Program) (parts : Parts) : List Task → Generation
  | [] => ⟨[], parts, .ok []⟩
  | t :: ts =>
    match generateTask o program parts t with
    | (log, .error e) => ⟨log, parts, .error e⟩
    | (log, .ok m) =>
      let rest := generateTasks o program (parts.attach t.name m) ts
      ⟨log ++ rest.log, rest.parts, rest.result.map (m :: ·)⟩

/-- The design of the generated modules; the top one is the one of the top task. -/
def designOf (top : String) (order : List Task) (modules : List Module) : Design :=
  ⟨modules, order.findIdx? (·.name == top)⟩

/-- A generated design, with the log and the modules at hand afterwards. -/
structure Composition where
  log : List LogEntry
  parts : Parts
  result : Except ComposeError Design

/-- Generates the modules of all composite tasks of a program. -/
def generate (o : Options) (program : Program) (parts : Parts) : Composition :=
  match program.compositeOrder with
  | .error e => ⟨[], parts, .error (.reference e)⟩
  | .ok order =>
    let g := generateTasks o program parts order
    ⟨g.log, g.parts, g.result.map (designOf program.top order)⟩

end TaskLoom
