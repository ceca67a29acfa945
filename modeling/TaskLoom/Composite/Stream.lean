import TaskLoom.Composite.Draft

/-!
# Streams of a composite

Each stream has six wires.  An internal one is a buffer between two instances; an external one
connects an instance to a stream port of the composite.
-/

namespace TaskLoom

/-- The least width, at least one bit, of an address into a buffer. -/
def bufferAddressWidth (depth : Int) : Nat := max 1 (bitLength (wrap64 (depth - 1)).toNat)

/-- An internal stream needs both sides, and an external one exactly one. -/
def Fifo.checkSides (f : Fifo) : Build Unit :=
  if f.isExternal then
    if f.producer.isNone == f.consumer.isNone then throw (.externalSides f.name) else pure ()
  else if f.producer.isNone then throw (.noProducer f.name)
  else if f.consumer.isNone then throw (.noConsumer f.name)
  else pure ()

/-- The width of a stream: that of its producer, or of its consumer if no instance produces. -/
def Plan.streamWidth (p : Plan) (f : Fifo) : Build Int := do
  let (side, suffix) := match f.producer with
    | some e => (some e, writeSide.data)
    | none => (f.consumer, readSide.data)
  match p.program.resolve p.task f.name side with
  | .error e => throw (.reference e)
  | .ok (inst, port) =>
    match p.parts.module? inst.task.name with
    | none => throw (.sideWithoutModule f.name inst.name)
    | some m => (Placement.mk inst m).portWidth port suffix

/-- The six wires of a stream, the two data wires first. -/
def streamWires (name : String) (width : Int) : List Signal :=
  [⟨streamWire name readSide.data, .wire, BitRange.bits width, []⟩,
   ⟨streamWire name writeSide.data, .wire, BitRange.bits width, []⟩,
   ⟨streamWire name readSide.flag, .wire, none, []⟩,
   ⟨streamWire name writeSide.flag, .wire, none, []⟩,
   ⟨streamWire name readSide.enable, .wire, none, []⟩,
   ⟨streamWire name writeSide.enable, .wire, none, []⟩]

/-- A number as a literal. -/
def intLiteral (n : Int) : Expr := .literal (toString n)

/-- The buffer of an internal stream. -/
def streamBuffer (name : String) (width depth : Int) : Cell :=
  let wire (suffix : String) : Expr := .ident (streamWire name suffix)
  { module := fifoPrimitive
    name := flatName name
    params := [⟨"DATA_WIDTH", intLiteral width⟩,
      ⟨"ADDR_WIDTH", intLiteral (bufferAddressWidth depth)⟩, ⟨"DEPTH", intLiteral depth⟩]
    ports := [⟨"clk", .ident clockPort⟩, ⟨"reset", .ident resetWire⟩,
      ⟨"if_dout", wire readSide.data⟩, ⟨"if_empty_n", wire readSide.flag⟩,
      ⟨"if_read", wire readSide.enable⟩, ⟨"if_read_ce", .yes⟩,
      ⟨"if_din", wire writeSide.data⟩, ⟨"if_full_n", wire writeSide.flag⟩,
      ⟨"if_write", wire writeSide.enable⟩, ⟨"if_write_ce", .yes⟩] }

/-- Reports each transfer of a stream in simulation. -/
def streamMonitor (name : String) : Logic :=
  let wire (suffix : String) : Expr := .ident (streamWire name suffix)
  let report (side : StreamSide) (verb : String) : Stmt :=
    .branch (.all [wire side.enable, wire side.flag])
      [.display ("DEBUG: fifo " ++ name ++ " " ++ verb ++ " %h") [wire side.data]] []
  .clocked [report readSide "read", report writeSide "write"] true

/-- Connects the wires of an external stream to the ports of the composite. -/
def connectExternal (f : Fifo) : Build Unit := do
  let side := if f.consumer.isSome then readSide else writeSide
  let m ← Build.module
  let data ← Build.require (m.portOf f.name side.data)
  let flag ← Build.require (m.portOf f.name side.flag)
  let enable ← Build.require (m.portOf f.name side.enable)
  let wire (suffix : String) : String := streamWire f.name suffix
  let dataLogic : Logic :=
    if f.consumer.isSome then .assign (wire side.data) (.ident data.name)
    else .assign data.name (.ident (wire side.data))
  Build.add [.logic dataLogic, .logic (.assign (wire side.flag) (.ident flag.name)),
    .logic (.assign enable.name (.ident (wire side.enable)))]

/-- Declares one stream and connects it. -/
def Plan.addStream (p : Plan) (f : Fifo) : Build Unit := do
  f.checkSides
  let width ← p.streamWidth f
  Build.add ((streamWires f.name width).map .signal)
  if f.isExternal then connectExternal f
  else
    Build.add [.cell (streamBuffer f.name width f.depth)]
    if p.options.debugMonitors then Build.add [.logic (streamMonitor f.name)]

end TaskLoom
