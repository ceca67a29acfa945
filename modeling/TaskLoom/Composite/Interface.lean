import TaskLoom.Composite.Draft

/-!
# The interface of a composite module

The ports of a composite come from its skeleton if it has one, else from the ports that its task
declares, and else from whatever its children need from outside.
-/

namespace TaskLoom

/-- The ports that a stream has on one side of a module; `enters` says whether its data goes in. -/
def streamPorts (name : String) (side : StreamSide) (enters : Bool) (width : Int) : List Port :=
  [⟨name ++ side.data, if enters then .input else .output, BitRange.bits width⟩,
   ⟨name ++ side.flag, .input, none⟩,
   ⟨name ++ side.enable, .output, none⟩]

/-- The ports of one argument of a composite. -/
def Plan.interfacePorts (p : Plan) (name : String) (c : Category) (width : Int) :
    Build (List Port) :=
  match c with
  | .scalar => return [⟨name, .input, BitRange.bits width⟩]
  | .mmap => return [⟨name, .input, BitRange.bits p.options.addressWidth⟩]
  | .asyncMmap => return [⟨name, .input, BitRange.bits p.options.addressWidth⟩]
  | .istream => return streamPorts name readSide true width
  | .ostream => return streamPorts name writeSide false width
  | .unknown _ => throw (.unsupported name c)

def Plan.addInterface (p : Plan) (name : String) (c : Category) (width : Int) : Build Unit := do
  Build.add ((← p.interfacePorts name c width).map .port)

/-- The ports by which every module is run. -/
def basePorts : List Port :=
  [⟨clockPort, .input, none⟩, ⟨resetPort, .input, none⟩, ⟨startPort, .input, none⟩,
   ⟨donePort, .output, none⟩, ⟨idlePort, .output, none⟩, ⟨readyPort, .output, none⟩]

/-- The side of a stream that an argument is. -/
def sideOf (c : Category) : StreamSide := if c == .ostream then writeSide else readSide

/-- The width of a stream argument at the child. -/
def Placement.streamWidth (c : Placement) (a : Arg) : Build Int :=
  c.portWidth a.port (sideOf a.category).data

/-- Whether an argument already has a port in the module. -/
def Module.hasInterface (m : Module) (name : String) : Bool :=
  m.declared name || m.declared (name ++ writeSide.data) || m.declared (name ++ readSide.data)

/-- Adds what one argument of a child needs from outside.  Constants need nothing, and streams only
if they are external. -/
def Plan.deriveArg (p : Plan) (c : Placement) (a : Arg) : Build Unit := do
  let m ← Build.module
  if m.hasInterface a.name || (Literal.sized? a.name).isSome then return
  if a.category.isStream then
    match p.task.fifo? a.name with
    | none => return
    | some f =>
      if f.isExternal then p.addInterface a.name a.category (← c.streamWidth a)
  else if a.category == .scalar then
    p.addInterface a.name a.category (← c.portWidth a.port "")
  else p.addInterface a.name a.category 0

/-- The interface of a composite without a skeleton. -/
def Plan.deriveInterface (p : Plan) : Build Unit := do
  Build.add (basePorts.map .port)
  if p.task.ports.isEmpty then
    p.children.forM fun c => c.inst.args.forM (p.deriveArg c)
  else p.task.ports.forM fun q => p.addInterface q.name q.category q.width

/-- The parameters that encode the states of a skeleton's own controller. -/
def stateParamMark : String := "ap_ST_fsm"

/-- Takes over the interface of a skeleton, apart from the states of its controller. -/
def Plan.copyInterface (skeleton : Module) : Build Unit := do
  Build.add (skeleton.ports.map .port)
  Build.add ((skeleton.params.filter fun q => !Text.beginsWith q.name stateParamMark).map .param)

/-- The interface must have all ports of the handshake. -/
def requireHandshake (m : Module) : List String → Build Unit
  | [] => pure ()
  | port :: ports =>
    if (m.port? port).isNone then throw (.noHandshakePort port) else requireHandshake m ports

/-- Declares the interface and the inverted reset. -/
def Plan.declareInterface (p : Plan) : Build Unit := do
  match p.parts.skeleton? p.task.name with
  | some s => Plan.copyInterface s
  | none => p.deriveInterface
  requireHandshake (← Build.module) handshakePorts
  Build.add [.signal ⟨resetWire, .wire, none, []⟩,
    .logic (.assign resetWire (.unary .complement (.ident resetPort)))]

end TaskLoom
