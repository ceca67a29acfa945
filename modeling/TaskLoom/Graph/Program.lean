import TaskLoom.Graph.Category

/-!
# Programs

A program is a hierarchy of tasks.  A leaf task comes with a finished module; a composite task
places instances of other tasks, its children, and connects them by streams.  Tasks, children,
arguments and streams are found by name, in tables that have no particular order: whatever goes over
all of them puts their names in order first.
-/

namespace TaskLoom

inductive Level where
  | leaf
  | composite
  deriving DecidableEq, Repr, Inhabited

def Level.text : Level → String
  | .leaf => "lower"
  | .composite => "upper"

/-- A port that a task declares in the description. -/
structure TaskPort where
  name : String
  category : Category
  type : String
  width : Int
  deriving DecidableEq, Repr, Inhabited

/-- A name of the parent bound to a port of a child. -/
structure Arg where
  name : String
  category : Category
  port : String
  deriving DecidableEq, Repr, Inhabited

/-- One placement of a child.  A negative step makes it run on its own, without being started. -/
structure Invocation where
  step : Int
  args : List Arg
  deriving DecidableEq, Repr, Inhabited

/-- A child task and its placements, which are numbered from zero. -/
structure Child where
  task : String
  invocations : List Invocation
  deriving DecidableEq, Repr, Inhabited

/-- One side of a stream: an instance of a child. -/
structure Endpoint where
  task : String
  index : Int
  deriving DecidableEq, Repr, Inhabited

/-- A stream inside a composite task.  Without depth it is external: the missing side is a stream
port of the task itself. -/
structure Fifo where
  name : String
  depth : Int
  producer : Option Endpoint
  consumer : Option Endpoint
  deriving DecidableEq, Repr, Inhabited

structure Task where
  name : String
  level : Level
  ports : List TaskPort := []
  childTable : List Child := []
  fifoTable : List Fifo := []
  deriving DecidableEq, Repr, Inhabited

structure Program where
  top : String
  taskTable : List Task := []
  deriving DecidableEq, Repr, Inhabited

/-- One placed child, with the task it is an instance of. -/
structure Instance where
  task : Task
  index : Nat
  step : Int
  args : List Arg
  deriving DecidableEq, Repr, Inhabited

/-- Why a reference inside a program leads nowhere. -/
inductive GraphError where
  | undefinedTop (name : String)
  | undefinedTask (parent child : String)
  | selfInstantiation (task : String) (path : List String)
  | missingEndpoint (fifo task : String)
  | noInstance (fifo task placed : String)
  | noStreamArgument (fifo task placed : String)
  deriving DecidableEq, Repr

/-- Several texts in brackets. -/
def bracketed (xs : List String) : String := "[" ++ String.intercalate " " xs ++ "]"

def GraphError.cause : GraphError → String
  | .undefinedTop name => s!"top task {Text.quote name} is not defined"
  | .undefinedTask parent child => s!"task {parent} instantiates undefined task {child}"
  | .selfInstantiation task path => s!"task {task} instantiates itself via {bracketed path}"
  | .missingEndpoint fifo task => s!"fifo {fifo} in {task}: missing endpoint"
  | .noInstance fifo task placed => s!"fifo {fifo} in {task}: no instance {placed}"
  | .noStreamArgument fifo task placed =>
    s!"fifo {fifo} in {task}: instance {placed} has no stream argument {fifo}"

def GraphError.message (e : GraphError) : String := e.cause ++ ": " ++ Kind.malformed.text

instance : Failure GraphError := ⟨fun _ => some .malformed, GraphError.message⟩

/-- The name of an instance of a task. -/
def instanceName (task : String) (index : Int) : String := task ++ "_" ++ toString index

def Endpoint.instanceName (e : Endpoint) : String := TaskLoom.instanceName e.task e.index

def Fifo.isExternal (f : Fifo) : Bool := f.depth == 0

namespace Task

def isComposite (t : Task) : Bool := t.level == .composite

/-- The children in the order of their names. -/
def children (t : Task) : List Child := Text.sortedBy Child.task t.childTable

def childNames (t : Task) : List String := t.children.map Child.task

/-- The streams in the order of their names. -/
def fifos (t : Task) : List Fifo := Text.sortedBy Fifo.name t.fifoTable

def fifoNames (t : Task) : List String := t.fifos.map Fifo.name

def port? (t : Task) (name : String) : Option TaskPort := t.ports.find? (·.name == name)

def fifo? (t : Task) (name : String) : Option Fifo := t.fifoTable.find? (·.name == name)

def invocations? (t : Task) (child : String) : Option (List Invocation) :=
  (t.childTable.find? (·.task == child)).map Child.invocations

/-- Replaces the category of an argument. -/
def withArgCategory (t : Task) (child : String) (index : Nat) (arg : String)
    (c : Category) : Task :=
  let setArg (a : Arg) : Arg := if a.name == arg then { a with category := c } else a
  let setInvocation (v : Invocation) : Invocation := { v with args := v.args.map setArg }
  { t with childTable := t.childTable.map fun ch =>
      if ch.task == child then { ch with invocations := ch.invocations.modify index setInvocation }
      else ch }

/-- Replaces the category of a declared port. -/
def withPortCategory (t : Task) (index : Nat) (c : Category) : Task :=
  { t with ports := t.ports.modify index fun p => { p with category := c } }

end Task

namespace Instance

def name (i : Instance) : String := instanceName i.task.name i.index

/-- Whether the instance runs on its own, without being started. -/
def isAutorun (i : Instance) : Bool := i.step < 0

def arg? (i : Instance) (name : String) : Option Arg := i.args.find? (·.name == name)

end Instance

namespace Program

def task? (p : Program) (name : String) : Option Task := p.taskTable.find? (·.name == name)

def topTask (p : Program) : Except GraphError Task :=
  match p.task? p.top with
  | some t => .ok t
  | none => .error (.undefinedTop p.top)

/-- The tasks in the order of their names. -/
def tasks (p : Program) : List Task := Text.sortedBy Task.name p.taskTable

def taskNames (p : Program) : List String := p.tasks.map Task.name

/-- The interface of the top task, if that task is defined. -/
def ports (p : Program) : List TaskPort := ((p.task? p.top).map Task.ports).getD []

def modifyTask (p : Program) (name : String) (f : Task → Task) : Program :=
  { p with taskTable := p.taskTable.map fun t => if t.name == name then f t else t }

/-- The instances of one child, each with its arguments in the order of their names. -/
def instancesOf (task : Task) (invocations : List Invocation) : List Instance :=
  invocations.mapIdx fun i v => ⟨task, i, v.step, Text.sortedBy Arg.name v.args⟩

/-- The children of some names, instance by instance. -/
def placedChildren (p : Program) (parent : String) : List Child → Except GraphError (List Instance)
  | [] => .ok []
  | c :: cs =>
    match p.task? c.task with
    | none => .error (.undefinedTask parent c.task)
    | some t => do return instancesOf t c.invocations ++ (← p.placedChildren parent cs)

/-- The instances that a task places, ordered by task and number. -/
def instances (p : Program) (t : Task) : Except GraphError (List Instance) :=
  p.placedChildren t.name t.children

/-- The instance that an endpoint of a stream refers to, and the port of it that is bound to the
stream. -/
def resolve (p : Program) (parent : Task) (fifo : String) :
    Option Endpoint → Except GraphError (Instance × String)
  | none => .error (.missingEndpoint fifo parent.name)
  | some e => do
    let absent : GraphError := .noInstance fifo parent.name e.instanceName
    let count := ((parent.invocations? e.task).getD []).length
    if e.index < 0 || (count : Int) ≤ e.index then throw absent
    let placed ← p.instances parent
    match placed.find? fun i => i.task.name == e.task && (i.index : Int) == e.index with
    | none => throw absent
    | some i =>
      match i.arg? fifo with
      | some a => if a.category.isStream then return (i, a.port)
      | none => pure ()
      throw (.noStreamArgument fifo parent.name i.name)

end Program

end TaskLoom
