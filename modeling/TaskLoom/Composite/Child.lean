import TaskLoom.Composite.Controller
import TaskLoom.Composite.Memory

/-!
# Instances of a composite

Each instance gets a delayed reset, delayed scalar and address arguments, a controller unless it
runs on its own, and a cell with all its ports bound.
-/

namespace TaskLoom

/-! ### Delayed arguments -/

/-- The name in the composite that carries a scalar or the address of a memory. -/
def parentSignal? (m : Module) (a : Arg) : Option String :=
  let candidates := a.name :: if a.category.isMmap then [a.name ++ "_offset"] else []
  candidates.find? m.declared

/-- The width of a scalar: that of the declared port, of the composite's port, or of the child's. -/
def Plan.scalarWidth (p : Plan) (c : Placement) (a : Arg) (signal : String) : Build Int := do
  let m ← Build.module
  match (p.task.port? a.name).filter (0 < ·.width) with
  | some q => return q.width
  | none =>
    match (m.port? signal).bind fun q => (BitRange.width q.range).toOption with
    | some w => return w
    | none => c.portWidth a.port ""

/-- What drives a delayed argument, and how wide it is. -/
def Plan.argSource (p : Plan) (c : Placement) (a : Arg) : Build (Expr × Int) := do
  match Literal.sized? a.name with
  | some s => return (.literal a.name, s.width)
  | none =>
    match parentSignal? (← Build.module) a with
    | none => throw (.noParentPort c.name a.category a.name)
    | some signal =>
      if a.category.isMmap then return (.ident signal, p.options.addressWidth)
      else return (.ident signal, ← p.scalarWidth c a signal)

/-- Delays one argument, if it is no stream. -/
def Plan.delayArg (p : Plan) (c : Placement) (a : Arg) : Build (Option (String × Pipeline)) := do
  if !a.category.isValid then throw (.unsupported (c.name ++ "." ++ a.name) a.category)
  if a.category.isStream then return none
  let (seed, width) ← p.argSource c a
  let q := Pipeline.make (instanceArg c.name a.name) p.options.registerLevel width
  Build.pipeline q seed
  modify fun d => { d with taps := (a.name, q) :: d.taps }
  return some (a.name, q)

/-- Delays the arguments of an instance. -/
def Plan.delayArgs (p : Plan) (c : Placement) : List Arg → Build (List (String × Pipeline))
  | [] => return []
  | a :: as => do
    let tap ← p.delayArg c a
    return tap.toList ++ (← p.delayArgs c as)

/-! ### Bindings -/

/-- The ports of a stream argument. -/
def bindStream (c : Placement) (a : Arg) : List String → Build (List Binding)
  | [] => return []
  | suffix :: rest => do
    let q ← Build.require (c.module.portOf a.port suffix)
    return ⟨q.name, .ident (streamWire a.name suffix)⟩ :: (← bindStream c a rest)

/-- The ports of one argument. -/
def Plan.bindArg (p : Plan) (c : Placement) (a : Arg) (tap : Expr) : Build (List Binding) :=
  match a.category with
  | .scalar => do
    let q ← Build.require (c.module.portOf a.port "")
    return [⟨q.name, tap⟩]
  | .istream => bindStream c a readSide.suffixes
  | .ostream => bindStream c a writeSide.suffixes
  | .mmap => p.bindBus c a tap
  | .asyncMmap => p.bindChannels c a tap
  | .unknown _ => throw (.unsupported (c.name ++ "." ++ a.name) a.category)

def Plan.bindArgs (p : Plan) (c : Placement) (taps : List (String × Pipeline)) :
    List Arg → Build (List Binding)
  | [] => return []
  | a :: as => do
    let tap : Expr := match taps.find? (·.1 == a.name) with
      | some (_, q) => .ident q.last
      | none => .absent
    let bound ← p.bindArg c a tap
    return bound ++ (← p.bindArgs c taps as)

/-- The handshake ports that a child has.  The status of an instance that runs on its own is left
open. -/
def handshakeBindings (c : Placement) (reset : Pipeline) : List Binding :=
  let status (name : String) : Expr := if c.inst.isAutorun then .absent else .ident name
  let all : List Binding :=
    [⟨clockPort, .ident clockPort⟩, ⟨resetPort, .ident reset.last⟩,
     ⟨startPort, .ident (instanceStart c.name)⟩, ⟨donePort, status (instanceDone c.name)⟩,
     ⟨idlePort, status (instanceIdle c.name)⟩, ⟨readyPort, status (instanceReady c.name)⟩]
  all.filter fun b => (c.module.port? b.name).isSome

/-! ### Starting an instance -/

/-- A child that is started must have the ports for it. -/
def requireControls (c : Placement) : List String → Build Unit
  | [] => pure ()
  | port :: ports =>
    if (c.module.port? port).isNone then throw (.noChildPort c.name c.module.name port)
    else requireControls c ports

/-- An instance that runs on its own is always started. -/
def startAlways (placed : String) : Build Unit :=
  Build.add [.signal ⟨instanceStart placed, .wire, none, []⟩,
    .logic (.assign (instanceStart placed) .yes)]

/-- The signals of the handshake with an instance. -/
def handshakeSignals (placed : String) : List Signal :=
  [⟨instanceState placed, .reg, BitRange.bits 2, []⟩, ⟨instanceStart placed, .wire, none, []⟩,
   ⟨instanceDone placed, .wire, none, []⟩, ⟨instanceIdle placed, .wire, none, []⟩,
   ⟨instanceReady placed, .wire, none, []⟩]

/-- The controller of an instance: the pipeline that tells the composite that it is done. -/
def addHandshake (level : Nat) (c : Placement) (reset : Pipeline) : Build Pipeline := do
  requireControls c [startPort, donePort, readyPort]
  let name := c.name
  Build.add ((handshakeSignals name).map .signal)
  let start := Pipeline.make (instanceStartGlobal name) level 1
  Build.pipeline start (.ident (startPipeline level).first)
  let isDone := Pipeline.make (instanceIsDone name) level 1
  Build.pipeline isDone (.equals (.ident (instanceState name)) state10)
  let done := Pipeline.make (instanceDoneGlobal name) level 1
  Build.pipeline done (.ident (donePipeline level).first)
  Build.add ((handshakeLogic name reset start done).map .logic)
  return isDone

/-- Adds one instance: the pipeline that tells that it is done, unless it runs on its own. -/
def Plan.addChild (p : Plan) (c : Placement) : Build (Option Pipeline) := do
  let level := p.options.registerLevel
  let reset := Pipeline.make (instanceReset c.name) level 1
  Build.pipeline reset (.ident resetPort)
  let taps ← p.delayArgs c c.inst.args
  let finished ← if c.inst.isAutorun then do startAlways c.name; pure none
    else some <$> addHandshake level c reset
  let bound ← p.bindArgs c taps c.inst.args
  Build.add [.cell { module := c.module.name, name := c.name
                     ports := handshakeBindings c reset ++ bound }]
  return finished

/-- Adds all instances: the pipelines of those to wait for. -/
def Plan.addChildren (p : Plan) : List Placement → Build (List Pipeline)
  | [] => return []
  | c :: cs => do
    let finished ← p.addChild c
    return finished.toList ++ (← p.addChildren cs)

end TaskLoom
