import TaskLoom.Composite.Names
import TaskLoom.Graph.Program
import TaskLoom.Hdl.Pipeline
import TaskLoom.Log

/-!
# Drafting a composite module

A composite module is built step by step on a draft.  A step can fail; what was logged before it
stays logged.
-/

namespace TaskLoom

/-- The width of memory addresses unless another one is asked for. -/
def defaultAddressWidth : Int := 64

/-- How composite modules are generated. -/
structure Options where
  /-- The number of registers on every control and scalar path. -/
  registerLevel : Nat := 0
  addressWidth : Int := defaultAddressWidth
  /-- Whether streams report their transfers in simulation. -/
  debugMonitors : Bool := false
  deriving DecidableEq, Repr

/-- Options with a negative level taken as none, and an address width that is not positive as the
default. -/
def Options.make (registerLevel addressWidth : Int) (debugMonitors : Bool) : Options :=
  ⟨registerLevel.toNat, if addressWidth ≤ 0 then defaultAddressWidth else addressWidth,
    debugMonitors⟩

/-- Why the module of a composite task cannot be built. -/
inductive WiringError where
  | build (e : BuildError)
  | port (e : NoSuchPort)
  | reference (e : GraphError)
  | width (module port : String) (e : AmbiguousWidth)
  | noHandshakePort (port : String)
  | unsupported (what : String) (category : Category)
  | externalSides (fifo : String)
  | noProducer (fifo : String)
  | noConsumer (fifo : String)
  | sideWithoutModule (fifo placed : String)
  | noChildPort (placed module port : String)
  | noParentPort (placed : String) (category : Category) (arg : String)
  | unknownDataWidth (placed arg : String)
  | noOffsetPort (placed module port : String)
  | noChannel (placed module port : String)
  deriving DecidableEq, Repr

namespace WiringError

def kind : WiringError → Kind
  | .build e => e.kind
  | .width .. => .ambiguousWidth
  | .unsupported .. => .unsupportedCategory
  | _ => .malformed

/-- What is wrong, without the class of the failure. -/
def cause : WiringError → String
  | .noHandshakePort name => s!"module has no handshake port {name}"
  | .unsupported what c => s!"{what}: {c.text}"
  | .externalSides fifo => s!"external fifo {fifo} must have exactly one endpoint"
  | .noProducer fifo => s!"fifo {fifo} has no producer"
  | .noConsumer fifo => s!"fifo {fifo} has no consumer"
  | .sideWithoutModule fifo placed => s!"fifo {fifo}: {placed} has no module"
  | .noChildPort placed module name => s!"instance {placed}: module {module} has no {name} port"
  | .noParentPort placed c arg =>
    s!"instance {placed}: {c.text} argument {arg} has no parent port"
  | .unknownDataWidth placed arg => s!"{placed}: cannot derive data width of {arg}"
  | .noOffsetPort placed module name =>
    s!"{placed}: module {module} has no offset port for {name}"
  | .noChannel placed module name =>
    s!"{placed}: module {module} exposes no async-mmap channel for {name}"
  | .build _ | .port _ | .reference _ | .width .. => ""

def message : WiringError → String
  | .build e => e.message
  | .port e => e.message
  | .reference e => e.message
  | .width module name e => s!"{module}.{name}: {e.message}"
  | e => e.cause ++ ": " ++ e.kind.text

end WiringError

instance : Failure WiringError := ⟨fun e => some e.kind, WiringError.message⟩

/-- The modules at hand: those of leaf tasks and those generated so far, and the skeletons of
composite tasks, all by the name of their task. -/
structure Parts where
  modules : List (String × Module) := []
  skeletons : List (String × Module) := []
  deriving Repr, Inhabited

namespace Parts

def module? (p : Parts) (task : String) : Option Module :=
  (p.modules.find? (·.1 == task)).map Prod.snd

def skeleton? (p : Parts) (task : String) : Option Module :=
  (p.skeletons.find? (·.1 == task)).map Prod.snd

/-- Attaches a module to a task in place of the one it had. -/
def attach (p : Parts) (task : String) (m : Module) : Parts :=
  { p with modules := (task, m) :: p.modules.filter (·.1 != task) }

end Parts

/-- An instance together with the module of its task. -/
structure Placement where
  inst : Instance
  module : Module
  deriving Repr, Inhabited

def Placement.name (c : Placement) : String := c.inst.name

/-- What the module of one composite task is built from. -/
structure Plan where
  options : Options
  program : Program
  parts : Parts
  task : Task
  children : List Placement

/-- Whether the task is the top one. -/
def Plan.isTop (p : Plan) : Bool := p.task.name == p.program.top

/-- The channels of a memory that an instance uses. -/
structure ChannelUse where
  arg : String
  dataWidth : Int
  channels : List String
  deriving DecidableEq, Repr, Inhabited

/-- A composite module under construction. -/
structure Draft where
  module : Module
  /-- The delayed arguments by name, the latest one first. -/
  taps : List (String × Pipeline) := []
  channelUses : List ChannelUse := []
  log : List LogEntry := []
  deriving Repr, Inhabited

/-- A step on a draft. -/
abbrev Build (α : Type) := EStateM WiringError Draft α

namespace Build

/-- Adds items to the module. -/
def add (items : List Item) : Build Unit := do
  let d ← get
  match d.module.addAll items with
  | .ok m => set { d with module := m }
  | .error e => throw (.build e)

/-- Adds a pipeline that is driven by `seed`. -/
def pipeline (p : Pipeline) (seed : Expr) : Build Unit := add (p.items seed)

/-- The module so far. -/
def module : Build Module := return (← get).module

/-- A port that must exist. -/
def require {α : Type} : Except NoSuchPort α → Build α
  | .ok a => pure a
  | .error e => throw (.port e)

/-- A width that must be known. -/
def widthOf (module : String) (p : Port) : Build Int :=
  match BitRange.width p.range with
  | .ok w => pure w
  | .error e => throw (.width module p.name e)

/-- Logs something about the task under construction. -/
def note (task : String) (level : LogLevel) (message : String)
    (fields : List (String × LogValue)) : Build Unit :=
  modify fun d => { d with log := d.log ++
    [⟨rootLogger ++ ".compose", level, message, ("task", .text task) :: fields⟩] }

end Build

/-- The width of the port of a child that carries an argument in a role. -/
def Placement.portWidth (c : Placement) (port suffix : String) : Build Int := do
  let p ← Build.require (c.module.portOf port suffix)
  Build.widthOf c.module.name p

end TaskLoom
