import TaskLoom.Composite.Interface

/-!
# Memories of a composite

A memory is reached through a bus of the composite.  An instance is bound to the bus directly, or
uses some of four channels; the channels are passed up to the top task, where an adapter connects
them to a bus.
-/

namespace TaskLoom

/-! ### The bus -/

/-- A port of a bus channel. -/
structure BusPort where
  name : String
  direction : Direction
  deriving DecidableEq, Repr

/-- A channel of the bus and its ports. -/
structure BusChannel where
  name : String
  ports : List BusPort
  deriving DecidableEq, Repr

/-- The ports of the two address channels. -/
def addressPorts : List BusPort :=
  [⟨"ADDR", .output⟩, ⟨"BURST", .output⟩, ⟨"CACHE", .output⟩, ⟨"ID", .output⟩,
   ⟨"LEN", .output⟩, ⟨"LOCK", .output⟩, ⟨"PROT", .output⟩, ⟨"QOS", .output⟩,
   ⟨"READY", .input⟩, ⟨"SIZE", .output⟩, ⟨"VALID", .output⟩]

/-- The channels of a bus in the order in which they are written. -/
def busChannels : List BusChannel :=
  [⟨"AR", addressPorts⟩,
   ⟨"AW", addressPorts⟩,
   ⟨"B", [⟨"ID", .input⟩, ⟨"READY", .output⟩, ⟨"RESP", .input⟩, ⟨"VALID", .input⟩]⟩,
   ⟨"R", [⟨"DATA", .input⟩, ⟨"ID", .input⟩, ⟨"LAST", .input⟩, ⟨"READY", .output⟩,
     ⟨"RESP", .input⟩, ⟨"VALID", .input⟩]⟩,
   ⟨"W", [⟨"DATA", .output⟩, ⟨"LAST", .output⟩, ⟨"READY", .input⟩, ⟨"STRB", .output⟩,
     ⟨"VALID", .output⟩]⟩]

/-- All ports of a bus, each with its channel. -/
def busPorts : List (String × BusPort) :=
  busChannels.flatMap fun ch => ch.ports.map fun p => (ch.name, p)

/-- The range of a bus port.  The transaction number is a vector even with one bit. -/
def busRange (addressWidth dataWidth : Int) (port : String) : Option BitRange :=
  match port with
  | "ADDR" => BitRange.bits addressWidth
  | "DATA" => BitRange.bits dataWidth
  | "STRB" => BitRange.bits (dataWidth.tdiv 8)
  | "ID" => some (BitRange.vector 1)
  | "BURST" => BitRange.bits 2
  | "CACHE" => BitRange.bits 4
  | "LEN" => BitRange.bits 8
  | "PROT" => BitRange.bits 3
  | "QOS" => BitRange.bits 4
  | "RESP" => BitRange.bits 2
  | "SIZE" => BitRange.bits 3
  | _ => none

/-- The bus of a memory as ports of the composite. -/
def Plan.declareBus (p : Plan) (arg : String) (dataWidth : Int) : Build Unit :=
  Build.add (busPorts.map fun (ch, q) =>
    .port ⟨busPort arg ch q.name, q.direction, busRange p.options.addressWidth dataWidth q.name⟩)

/-! ### The channels -/

/-- The channels of a memory. -/
def channelNames : List String := ["read_addr", "read_data", "write_addr", "write_data"]

/-- An instance reads from the channel of read data and writes to the others. -/
def channelSide (channel : String) : StreamSide :=
  if channel == "read_data" then readSide else writeSide

/-- The range of a channel signal; only data has one. -/
def Plan.channelRange (p : Plan) (channel suffix : String) (dataWidth : Int) : Option BitRange :=
  if suffix != readSide.data && suffix != writeSide.data then none
  else if Text.endsWith channel "_addr" then BitRange.bits p.options.addressWidth
  else BitRange.bits dataWidth

/-- The direction of a channel that is passed on: what leaves the child leaves the composite. -/
def channelDirection (suffix : String) : Direction :=
  if suffix == readSide.enable || suffix == writeSide.data || suffix == writeSide.enable then
    .output
  else .input

/-- The first of some channels of a child with a data port of a known width. -/
def channelWidth? (m : Module) (port : String) (channels : List String) : Option Int :=
  channels.findSome? fun ch =>
    (m.findPort? (port ++ "_" ++ ch) (channelSide ch).data).bind fun q =>
      (BitRange.width q.range).toOption

/-- The data width of a memory: that of the declared port, or else what the child shows. -/
def Plan.dataWidth (p : Plan) (c : Placement) (a : Arg) : Build Int :=
  match (p.task.port? a.name).filter (0 < ·.width) with
  | some q => pure q.width
  | none =>
    if a.category.isAsync then
      match channelWidth? c.module a.port ["write_data", "read_data"] with
      | some w => pure w
      | none => throw (.unknownDataWidth c.name a.name)
    else c.portWidth ("m_axi_" ++ a.port) "_WDATA"

/-! ### Binding an instance -/

/-- The endings of the port of a child that takes the address of a memory. -/
def offsetSuffixes : List String := ["_offset", "_data_V", "_V", ""]

/-- The offset port of a child, and the ending by which it was found. -/
def offsetPort? (m : Module) (port : String) : Option (String × Port) :=
  offsetSuffixes.findSome? fun suffix => (m.findPort? port suffix).map fun q => (suffix, q)

/-- Binds a memory argument to a bus of the composite, and its offset port to the delayed
address. -/
def Plan.bindBus (p : Plan) (c : Placement) (a : Arg) (tap : Expr) : Build (List Binding) := do
  let width ← p.dataWidth c a
  p.declareBus a.name width
  match offsetPort? c.module a.port with
  | none => throw (.noOffsetPort c.name c.module.name a.port)
  | some (suffix, q) =>
    if q.name != a.port ++ suffix then
      Build.note p.task.name .warn "unexpected offset port"
        [("port", .text q.name), ("module", .text c.module.name), ("m_axi", .text a.port)]
    return busPorts.map (fun (ch, r) =>
      Binding.mk (busPort a.port ch r.name) (.ident (busPort a.name ch r.name))) ++ [⟨q.name, tap⟩]

/-- The ports of a child that belong to one channel of a memory. -/
def channelBindings (m : Module) (a : Arg) (channel : String) : List Binding :=
  (channelSide channel).suffixes.filterMap fun suffix =>
    (m.findPort? (a.port ++ "_" ++ channel) suffix).map fun q =>
      ⟨q.name, .ident (channelWire a.name channel suffix)⟩

/-- The signals of one channel: wires at the top, and ports below it. -/
def Plan.channelItems (p : Plan) (arg channel : String) (dataWidth : Int) : List Item :=
  (channelSide channel).suffixes.map fun suffix =>
    let name := channelWire arg channel suffix
    let range := p.channelRange channel suffix dataWidth
    if p.isTop then .signal ⟨name, .wire, range, []⟩
    else .port ⟨name, channelDirection suffix, range⟩

/-- Binds a memory argument by the channels that the child shows, and its offset port, if it has
one, to the delayed address. -/
def Plan.bindChannels (p : Plan) (c : Placement) (a : Arg) (tap : Expr) : Build (List Binding) := do
  let width ← p.dataWidth c a
  let used := channelNames.filter fun ch => !(channelBindings c.module a ch).isEmpty
  Build.add (used.flatMap fun ch => p.channelItems a.name ch width)
  if used.isEmpty then throw (.noChannel c.name c.module.name a.port)
  let offset := ([a.port, a.port ++ "_offset"].find? fun n => (c.module.port? n).isSome).toList
  Build.note p.task.name .debug "async_mmap channels"
    [("instance", .text c.name), ("arg", .text a.name), ("tags", .list used)]
  modify fun d => { d with channelUses := d.channelUses ++ [⟨a.name, width, used⟩] }
  return used.flatMap (channelBindings c.module a) ++ offset.map fun n => ⟨n, tap⟩

/-! ### Adapters -/

/-- The logarithm of the number of bytes of a data word. -/
def bytesLog (dataWidth : Int) : Nat := bitLength (dataWidth.tdiv 8 - 1).toNat

/-- What an adapter's channel port is bound to; an unused channel is tied off. -/
def channelArg (u : ChannelUse) (channel suffix : String) : Expr :=
  if u.channels.contains channel then .ident (channelWire u.arg channel suffix)
  else if suffix == readSide.enable || suffix == writeSide.enable then .no
  else if suffix == writeSide.data then .literal "'d0"
  else .absent

/-- The adapter between the channels of a memory and its bus. -/
def channelAdapter (addressWidth : Int) (u : ChannelUse) (offset : Expr) : Cell where
  module := channelPrimitive
  name := u.arg ++ "__m_axi"
  params := [⟨"DataWidth", .literal (toString u.dataWidth)⟩,
    ⟨"DataWidthBytesLog", .literal (toString (bytesLog u.dataWidth))⟩,
    ⟨"AddrWidth", .literal (toString addressWidth)⟩]
  ports :=
    [⟨"clk", .ident clockPort⟩, ⟨"rst", .ident resetWire⟩, ⟨"offset", offset⟩] ++
    busPorts.map (fun (ch, q) => ⟨"m_axi_" ++ ch ++ q.name, .ident (busPort u.arg ch q.name)⟩) ++
    channelNames.flatMap fun ch => (channelSide ch).suffixes.map fun suffix =>
      ⟨ch ++ suffix, channelArg u ch suffix⟩

/-- Adds one adapter. -/
def Plan.addAdapter (p : Plan) (u : ChannelUse) : Build Unit := do
  p.declareBus u.arg u.dataWidth
  let taps := (← get).taps
  let offset : Expr := match taps.find? (·.1 == u.arg) with
    | some (_, q) => .ident q.last
    | none => .absent
  Build.add [.cell (channelAdapter p.options.addressWidth u offset)]

/-- Adds the adapters of the top task; any other composite passes its channels on. -/
def Plan.addAdapters (p : Plan) : Build Unit := do
  if p.isTop then (← get).channelUses.forM p.addAdapter

end TaskLoom
