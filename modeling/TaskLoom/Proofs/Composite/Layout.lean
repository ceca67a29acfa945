import TaskLoom.Composite.Generate
import TaskLoom.Proofs.Composite.Growth

/-!
# The layout of a composite module

`Layout level waited items` says which items make up the control of a composite, where `waited` are
the names of the instances that are started and waited for: the inverted reset, the controller with
its pipelines, and for each waited instance its reset pipeline and its handshake (`handshakeItems`).
All items together are `Wired`, so nothing else drives a register of the control.

Main statement: the module of every composite task that is generated has this layout
(`generateTask_layout`).
-/

namespace TaskLoom

open Build

/-! ### The parts of the control -/

/-- The reset as an instance sees it. -/
def resetTap (level : Nat) (placed : String) : Pipeline :=
  Pipeline.make (instanceReset placed) level 1

/-- The start of the composite as an instance sees it. -/
def startTap (level : Nat) (placed : String) : Pipeline :=
  Pipeline.make (instanceStartGlobal placed) level 1

/-- The end of an instance as the composite sees it. -/
def isDoneTap (level : Nat) (placed : String) : Pipeline :=
  Pipeline.make (instanceIsDone placed) level 1

/-- The end of the composite's run as an instance sees it. -/
def doneTap (level : Nat) (placed : String) : Pipeline :=
  Pipeline.make (instanceDoneGlobal placed) level 1

def resetItems : List Item :=
  [.signal ⟨resetWire, .wire, none, []⟩,
   .logic (.assign resetWire (.unary .complement (.ident resetPort)))]

def controlSignals (level : Nat) : List Signal :=
  [⟨stateReg, .reg, BitRange.bits 2, []⟩,
   ⟨countdownReg, .reg, some (BitRange.vector (countdownWidth level)), []⟩]

/-- The pipelines between an instance and the controller. -/
def tapItems (level : Nat) (placed : String) : List Item :=
  (startTap level placed).items (.ident (startPipeline level).first) ++
    ((isDoneTap level placed).items (.equals (.ident (instanceState placed)) state10) ++
      (doneTap level placed).items (.ident (donePipeline level).first))

/-- Everything about the handshake with an instance. -/
def handshakeItems (level : Nat) (placed : String) : List Item :=
  (handshakeSignals placed).map .signal ++ (tapItems level placed ++
    (handshakeLogic placed (resetTap level placed) (startTap level placed)
      (doneTap level placed)).map .logic)

/-- The control of a composite within its items. -/
structure Layout (level : Nat) (waited : List String) (items : List Item) : Prop where
  wired : Wired [] items
  ports : ∀ n ∈ handshakePorts, ∃ p, .port p ∈ items ∧ p.name = n
  reset : resetItems ⊆ items
  signals : (controlSignals level).map .signal ⊆ items
  start : (startPipeline level).items (.ident startPort) ⊆ items
  done : (donePipeline level).items (.equals (.ident stateReg) state10) ⊆ items
  controller : (controlLogic level (waited.map (isDoneTap level))).map .logic ⊆ items
  resets : ∀ n ∈ waited, (resetTap level n).items (.ident resetPort) ⊆ items
  handshake : ∀ n ∈ waited, handshakeItems level n ⊆ items

theorem Plan.reads_interfacePorts (p : Plan) (name : String) (c : Category) (width : Int) :
    (p.interfacePorts name c width).Reads fun _ => True := by
  unfold Plan.interfacePorts
  cases c <;> first | exact .pure trivial | exact .throw

theorem logicsOf_map_port (ps : List Port) : logicsOf (ps.map .port) = [] := by
  simp [logicsOf, List.filterMap_map, Function.comp_def, Item.logic?]

theorem logicsOf_map_param (ps : List Param) : logicsOf (ps.map .param) = [] := by
  simp [logicsOf, List.filterMap_map, Function.comp_def, Item.logic?]

theorem Plan.declares_addInterface (p : Plan) (name : String) (c : Category) (width : Int) :
    (p.addInterface name c width).Declares :=
  .silent_bind (p.reads_interfacePorts name c width).silent fun ps => .add (logicsOf_map_port ps)

theorem Plan.declares_deriveArg (p : Plan) (c : Placement) (a : Arg) :
    (p.deriveArg c a).Declares := by
  unfold Plan.deriveArg
  refine .silent_bind silent_module fun m => .ite (fun _ => .pure) fun _ => ?_
  refine .ite (fun _ => ?_) fun _ => .ite (fun _ => ?_) fun _ => p.declares_addInterface _ _ _
  · split
    · exact .pure
    · refine .ite (fun _ => ?_) fun _ => .pure
      exact .silent_bind (c.silent_portWidth _ _) fun w => p.declares_addInterface _ _ _
  · exact .silent_bind (c.silent_portWidth _ _) fun w => p.declares_addInterface _ _ _

theorem Plan.declares_deriveInterface (p : Plan) : p.deriveInterface.Declares := by
  unfold Plan.deriveInterface
  refine .bind (.add (logicsOf_map_port _)) fun _ => .ite (fun _ => ?_) fun _ => ?_
  · exact .forM _ fun c _ => .forM _ fun a _ => p.declares_deriveArg c a
  · exact .forM _ fun q _ => p.declares_addInterface _ _ _

theorem declares_copyInterface (skeleton : Module) : (Plan.copyInterface skeleton).Declares :=
  .bind (.add (logicsOf_map_port _)) fun _ => .add (logicsOf_map_param _)

theorem reads_requireHandshake (m : Module) (names : List String) :
    (requireHandshake m names).Reads fun _ => ∀ n ∈ names, ∃ p ∈ m.ports, p.name = n := by
  induction names with
  | nil => exact .pure (by simp)
  | cons n names ih =>
    unfold requireHandshake
    refine .ite (fun _ => .throw) fun hn d a d' hr => ?_
    obtain ⟨rfl, h⟩ := ih d a d' hr
    refine ⟨rfl, fun k hk => ?_⟩
    rcases List.mem_cons.1 hk with rfl | hk
    · cases hp : m.port? k with
      | none => simp [hp] at hn
      | some q =>
        exact ⟨q, List.mem_of_find?_eq_some hp, by simpa using List.find?_some hp⟩
    · exact h k hk

theorem silent_requireHandshake (m : Module) (names : List String) :
    (requireHandshake m names).Silent fun _ => ∀ n ∈ names, ∃ p ∈ m.ports, p.name = n :=
  (reads_requireHandshake m names).silent

/-- The interface consists of ports and parameters, among them those of the handshake, followed by
the inverted reset. -/
theorem Plan.adds_declareInterface (p : Plan) :
    p.declareInterface.Adds fun m xs _ => ∃ iface, xs = iface ++ resetItems ∧
      logicsOf iface = [] ∧ ∀ n ∈ handshakePorts, ∃ q ∈ m.ports ++ portsOf iface, q.name = n := by
  have hrest : Adds (Build.module >>= fun m => requireHandshake m handshakePorts >>= fun _ =>
      Build.add resetItems) fun m xs _ => xs = resetItems ∧
        ∀ n ∈ handshakePorts, ∃ q ∈ m.ports, q.name = n := by
    refine (Adds.bind adds_module fun m => Adds.bind (silent_requireHandshake m _) fun _ =>
      adds_add _).mono ?_
    rintro m _ _ ⟨_, _, a, _, rfl, -, ⟨rfl, rfl⟩, _, _, _, _, rfl, -, ⟨rfl, hports⟩, rfl⟩
    exact ⟨rfl, hports⟩
  have hfirst (b : Build Unit) (hb : b.Declares) : Adds (b >>= fun _ => Build.module >>= fun m =>
      requireHandshake m handshakePorts >>= fun _ => Build.add resetItems) fun m xs _ =>
        ∃ iface, xs = iface ++ resetItems ∧ logicsOf iface = [] ∧
          ∀ n ∈ handshakePorts, ∃ q ∈ m.ports ++ portsOf iface, q.name = n := by
    refine (Adds.bind hb fun _ => hrest).mono ?_
    rintro m _ _ ⟨xs, _, _, m', rfl, hadd, hx, rfl, hports⟩
    refine ⟨xs, rfl, hx, ?_⟩
    rw [← Module.ports_pushAll, ← Module.addAll_eq hadd]
    exact hports
  unfold Plan.declareInterface
  split
  · exact hfirst _ (declares_copyInterface _)
  · exact hfirst _ p.declares_deriveInterface

theorem Fifo.reads_checkSides (f : Fifo) : f.checkSides.Reads fun _ => True := by
  unfold Fifo.checkSides
  refine .ite (fun _ => ?_) fun _ => ?_
  · exact .ite (fun _ => .throw) fun _ => .pure trivial
  · refine .ite (fun _ => .throw) fun _ => ?_
    exact .ite (fun _ => .throw) fun _ => .pure trivial

theorem Fifo.silent_checkSides (f : Fifo) : f.checkSides.Silent fun _ => True :=
  f.reads_checkSides.silent

theorem Plan.reads_streamWidth (p : Plan) (f : Fifo) : (p.streamWidth f).Reads fun _ => True := by
  unfold Plan.streamWidth
  simp only
  split
  · exact .throw
  · split
    · exact .throw
    · exact Placement.reads_portWidth _ _ _

theorem Plan.silent_streamWidth (p : Plan) (f : Fifo) : (p.streamWidth f).Silent fun _ => True :=
  (p.reads_streamWidth f).silent

theorem mem_of_portOf {m : Module} {arg suffix : String} {q : Port}
    (h : m.portOf arg suffix = .ok q) : q ∈ m.ports := by
  unfold Module.portOf at h
  split at h
  · rename_i q' hq
    cases h
    obtain ⟨n, hn⟩ := List.exists_of_findSome?_eq_some hq
    exact List.mem_of_find?_eq_some hn.2
  · cases h

theorem portOf_mem {m : Module} {arg suffix : String} {q : Port} (h : m.portOf arg suffix = .ok q) :
    q.name ∈ portNames m := List.mem_map_of_mem (mem_of_portOf h)

/-- Logic that drives a wire of the stream or a port. -/
def DrivesStream (f : Fifo) (m : Module) (l : Logic) : Prop :=
  ∃ target e, l = .assign target e ∧ (target ∈ portNames m ∨
    ∃ suffix ∈ readSide.suffixes ++ writeSide.suffixes, target = streamWire f.name suffix)

theorem adds_connectExternal (f : Fifo) : (connectExternal f).Adds fun m xs _ =>
    ∃ ls : List Logic, xs = ls.map .logic ∧ ∀ l ∈ ls, DrivesStream f m l := by
  unfold connectExternal
  refine (Adds.bind adds_module (Q := fun m _ xs _ =>
    ∃ ls : List Logic, xs = ls.map .logic ∧ ∀ l ∈ ls, DrivesStream f m l) fun m => ?_).mono ?_
  · refine (silent_require _).bind_adds fun data hdata => (silent_require _).bind_adds
      fun flag _ => (silent_require _).bind_adds fun enable henable => ?_
    refine (adds_add _).mono fun _ xs _ hxs => ⟨[_, _, _], hxs, fun l hl => ?_⟩
    have hside : (if f.consumer.isSome then readSide else writeSide) ∈ [readSide, writeSide] := by
      split <;> simp
    generalize (if f.consumer.isSome then readSide else writeSide) = side at hdata henable hl hside
    have hwire (suffix : String) (h : suffix ∈ side.suffixes) :
        suffix ∈ readSide.suffixes ++ writeSide.suffixes := by
      rw [List.mem_append]
      rcases List.mem_cons.1 hside with rfl | hside
      · exact .inl h
      · rw [List.mem_singleton.1 hside] at h
        exact .inr h
    simp only [List.mem_cons, List.not_mem_nil, or_false] at hl
    rcases hl with rfl | rfl | rfl
    · split
      · exact ⟨_, _, rfl, .inr ⟨side.data, hwire _ (by simp [StreamSide.suffixes]), rfl⟩⟩
      · exact ⟨_, _, rfl, .inl (portOf_mem hdata)⟩
    · exact ⟨_, _, rfl, .inr ⟨side.flag, hwire _ (by simp [StreamSide.suffixes]), rfl⟩⟩
    · exact ⟨_, _, rfl, .inl (portOf_mem henable)⟩
  · rintro m _ _ ⟨_, ys, a, m', rfl, -, ⟨rfl, rfl⟩, h⟩
    exact h

theorem streamWire_mem (name : String) (width : Int) {suffix : String}
    (h : suffix ∈ readSide.suffixes ++ writeSide.suffixes) :
    streamWire name suffix ∈ wiresOf ((streamWires name width).map .signal) := by
  simp only [readSide, writeSide, StreamSide.suffixes, List.cons_append, List.nil_append,
    List.mem_cons, List.not_mem_nil, or_false] at h
  simp only [wiresOf, signalsOf_map_signal, streamWires]
  rcases h with rfl | rfl | rfl | rfl | rfl | rfl <;> simp [readSide, writeSide]

theorem wired_streamMonitor (name : String) (ports : List String) :
    Wired ports [.logic (streamMonitor name)] :=
  .of_no_blocks rfl (by simp [assignsIn, logicsOf, Item.logic?, streamMonitor, Circuit.assignsOf])

theorem Wired.of_drivesStream {f : Fifo} {m : Module} {width : Int} {ls : List Logic}
    (h : ∀ l ∈ ls, DrivesStream f m l) :
    Wired (portNames m) ((streamWires f.name width).map .signal ++ ls.map .logic) := by
  refine .of_no_blocks ?_ fun a ha => ?_
  · rw [blocksIn_append, blocksIn_signals, blocksIn_logics, List.nil_append]
    refine List.filterMap_eq_nil_iff.2 fun l hl => ?_
    obtain ⟨_, _, rfl, -⟩ := h l hl
    rfl
  · rw [mem_assignsIn, List.mem_append] at ha
    obtain ⟨_, _, he, ht⟩ := h _ (by simpa using ha)
    cases he
    rw [wiresOf_append, List.mem_append]
    rcases ht with ht | ⟨suffix, hs, ht⟩
    · exact .inr (.inr ht)
    · rw [ht]
      exact .inl (.inl (streamWire_mem _ _ hs))

theorem Plan.wires_addStream (p : Plan) (f : Fifo) : (p.addStream f).Wires fun _ _ => True := by
  unfold Plan.addStream
  refine .silent_bind f.silent_checkSides fun _ _ =>
    .silent_bind (p.silent_streamWidth f) fun w _ => ?_
  by_cases hf : f.isExternal
  · simp only [hf, if_true]
    refine (Adds.bind (adds_add _) fun _ => adds_connectExternal f).mono ?_
    rintro m _ _ ⟨_, _, _, m', rfl, hadd, rfl, ls, rfl, hls⟩
    have hports : portNames m' = portNames m := by
      rw [portNames_of_addAll hadd, portNamesOf_signals, List.append_nil]
    refine ⟨.of_drivesStream fun l hl => ?_, trivial⟩
    obtain ⟨t, e, rfl, ht⟩ := hls l hl
    exact ⟨t, e, rfl, hports ▸ ht⟩
  · simp only [hf]
    refine .seq (.of_declares (.add (logicsOf_map_signal _))) fun _ =>
      .seq (.of_declares (.add rfl)) fun _ => .ite (fun _ => ?_) fun _ => .pure trivial
    exact Wires.mono (.add (wired_streamMonitor f.name)) fun _ _ _ => trivial

theorem Plan.reads_scalarWidth (p : Plan) (c : Placement) (a : Arg) (signal : String) :
    (p.scalarWidth c a signal).Reads fun _ => True := by
  unfold Plan.scalarWidth
  refine reads_module.bind fun m _ => ?_
  split
  · exact .pure trivial
  · split
    · exact .pure trivial
    · exact c.reads_portWidth _ _

theorem Plan.reads_argSource (p : Plan) (c : Placement) (a : Arg) :
    (p.argSource c a).Reads fun _ => True := by
  unfold Plan.argSource
  split
  · exact .pure trivial
  · refine reads_module.bind fun m _ => ?_
    split
    · exact .throw
    · refine .ite (fun _ => .pure trivial) fun _ => ?_
      exact (p.reads_scalarWidth c a _).bind fun _ _ => .pure trivial

theorem Plan.silent_argSource (p : Plan) (c : Placement) (a : Arg) :
    (p.argSource c a).Silent fun _ => True := (p.reads_argSource c a).silent

theorem Plan.wires_delayArg (p : Plan) (c : Placement) (a : Arg) :
    (p.delayArg c a).Wires fun _ _ => True := by
  have hdelay : Wires (do
      let s ← p.argSource c a
      let q := Pipeline.make (instanceArg c.name a.name) p.options.registerLevel s.2
      Build.pipeline q s.1
      modify fun d => { d with taps := (a.name, q) :: d.taps }
      return some (a.name, q)) fun _ _ => True := by
    refine .silent_bind (p.silent_argSource c a) fun s _ => ?_
    refine .seq (Wires.mono (.pipeline _ _) fun _ _ _ => trivial) fun _ => ?_
    exact .silent_bind (silent_modify fun _ => rfl) fun _ _ => .pure trivial
  unfold Plan.delayArg
  refine .ite (fun _ => ?_) fun _ => .ite (fun _ => .pure trivial) fun _ => hdelay
  exact .seq .throw fun _ => .ite (fun _ => .pure trivial) fun _ => hdelay

theorem Plan.wires_delayArgs (p : Plan) (c : Placement) (as : List Arg) :
    (p.delayArgs c as).Wires fun _ _ => True := by
  induction as with
  | nil => exact .pure trivial
  | cons a as ih => exact .seq (p.wires_delayArg c a) fun _ => .seq ih fun _ => .pure trivial

theorem reads_bindStream (c : Placement) (a : Arg) (suffixes : List String) :
    (bindStream c a suffixes).Reads fun bound =>
      ∀ b ∈ bound, ∃ suffix ∈ suffixes, b.arg = .ident (streamWire a.name suffix) := by
  induction suffixes with
  | nil => exact .pure (by simp)
  | cons suffix suffixes ih =>
    refine (reads_require _).bind fun q _ => ih.bind fun bound hbound => .pure fun b hb => ?_
    rcases List.mem_cons.1 hb with rfl | hb
    · exact ⟨suffix, List.mem_cons_self, rfl⟩
    · obtain ⟨suffix', hmem, he⟩ := hbound b hb
      exact ⟨suffix', List.mem_cons_of_mem _ hmem, he⟩

theorem Plan.reads_dataWidth (p : Plan) (c : Placement) (a : Arg) :
    (p.dataWidth c a).Reads fun _ => True := by
  unfold Plan.dataWidth
  split
  · exact .pure trivial
  · refine .ite (fun _ => ?_) fun _ => c.reads_portWidth _ _
    split
    · exact .pure trivial
    · exact .throw

theorem Plan.silent_dataWidth (p : Plan) (c : Placement) (a : Arg) :
    (p.dataWidth c a).Silent fun _ => True := (p.reads_dataWidth c a).silent

theorem Plan.declares_declareBus (p : Plan) (arg : String) (width : Int) :
    (p.declareBus arg width).Declares :=
  .add (by simp [logicsOf, Item.logic?])

theorem Plan.declares_bindBus (p : Plan) (c : Placement) (a : Arg) (tap : Expr) :
    (p.bindBus c a tap).Declares := by
  unfold Plan.bindBus
  refine .silent_bind (p.silent_dataWidth c a) fun w => ?_
  refine .bind (p.declares_declareBus _ _) fun _ => ?_
  split
  · exact .throw
  · refine .ite (fun _ => ?_) fun _ => .pure
    exact .silent_bind (silent_note _ _ _ _) fun _ => .pure

theorem Plan.logicsOf_channelItems (p : Plan) (arg channel : String) (width : Int) :
    logicsOf (p.channelItems arg channel width) = [] := by
  unfold Plan.channelItems
  cases p.isTop <;> simp [logicsOf, Item.logic?]

theorem Plan.declares_bindChannels (p : Plan) (c : Placement) (a : Arg) (tap : Expr) :
    (p.bindChannels c a tap).Declares := by
  unfold Plan.bindChannels
  refine .silent_bind (p.silent_dataWidth c a) fun w => .bind (.add ?_) fun _ => ?_
  · rw [logicsOf, List.filterMap_flatMap]
    exact List.flatMap_eq_nil_iff.2 fun ch _ => p.logicsOf_channelItems _ ch w
  · refine .ite (fun _ => .bind .throw fun _ => ?_) fun _ => ?_
    all_goals
      exact .silent_bind (silent_note _ _ _ _) fun _ =>
        .silent_bind (silent_modify fun _ => rfl) fun _ => .pure

theorem Plan.declares_bindArg (p : Plan) (c : Placement) (a : Arg) (tap : Expr) :
    (p.bindArg c a tap).Declares := by
  unfold Plan.bindArg
  split
  · exact .silent_bind (silent_require _) fun _ => .pure
  · exact .of_silent (reads_bindStream c a _).silent
  · exact .of_silent (reads_bindStream c a _).silent
  · exact p.declares_bindBus c a tap
  · exact p.declares_bindChannels c a tap
  · exact .throw

theorem Plan.declares_bindArgs (p : Plan) (c : Placement) (taps : List (String × Pipeline))
    (as : List Arg) : (p.bindArgs c taps as).Declares := by
  induction as with
  | nil => exact .pure
  | cons a as ih => exact .bind (p.declares_bindArg c a _) fun _ => .bind ih fun _ => .pure

theorem Plan.declares_addAdapter (p : Plan) (u : ChannelUse) : (p.addAdapter u).Declares :=
  .bind (p.declares_declareBus _ _) fun _ => .silent_bind silent_get fun _ => .add rfl

theorem Plan.declares_addAdapters (p : Plan) : p.addAdapters.Declares :=
  .ite (fun _ => .silent_bind silent_get fun _ => .forM _ fun u _ => p.declares_addAdapter u)
    fun _ => .pure

theorem reads_requireControls (c : Placement) (ports : List String) :
    (requireControls c ports).Reads fun _ => True := by
  induction ports with
  | nil => exact .pure trivial
  | cons port ports ih => exact .ite (fun _ => .throw) fun _ => ih

theorem silent_requireControls (c : Placement) (ports : List String) :
    (requireControls c ports).Silent fun _ => True := (reads_requireControls c ports).silent

theorem wires_startAlways (placed : String) : (startAlways placed).Wires fun _ _ => True := by
  refine Wires.mono (.add fun ports => .of_no_blocks rfl fun a ha => .inl ?_) fun _ _ _ => trivial
  rw [mem_assignsIn] at ha
  have hstart : a.1 = instanceStart placed ∧ a.2 = .yes := by simpa using ha
  rw [hstart.1]
  simp [wiresOf, signalsOf, Item.signal?]

theorem wired_handshakeItems (level : Nat) (placed : String) (ports : List String) :
    Wired ports (handshakeItems level placed) := by
  refine Wired.enclose ?_ ?_ (List.pairwise_singleton _ _) ?_
  · exact ((startTap level placed).wired _ _).append
      (((isDoneTap level placed).wired _ _).append ((doneTap level placed).wired _ _))
  · intro b hb r hr
    rw [List.mem_singleton.1 hb] at hr
    have hstate : r = instanceState placed := by
      simpa [handshakeStep, Stmt.allTargets, Stmt.targets, Stmt.armTargets, setState] using hr
    rw [hstate, mem_registersOf]
    exact ⟨⟨instanceState placed, .reg, BitRange.bits 2, []⟩, by simp [handshakeSignals], rfl, rfl⟩
  · intro a ha
    rw [List.mem_singleton.1 ha]
    exact .inl (mem_wiresOf.2
      ⟨⟨instanceStart placed, .wire, none, []⟩, by simp [handshakeSignals], by simp, rfl⟩)

theorem wires_addHandshake (level : Nat) (c : Placement) :
    (addHandshake level c (resetTap level c.name)).Wires fun xs a =>
      xs = handshakeItems level c.name ∧ a = isDoneTap level c.name := by
  have hadds : (addHandshake level c (resetTap level c.name)).Adds fun _ xs a =>
      xs = handshakeItems level c.name ∧ a = isDoneTap level c.name := by
    unfold addHandshake
    refine (silent_requireControls c _).bind_adds fun _ _ => ?_
    refine (Adds.bind (adds_add _) fun _ => Adds.bind (adds_pipeline _ _) fun _ =>
      Adds.bind (adds_pipeline _ _) fun _ => Adds.bind (adds_pipeline _ _) fun _ =>
      Adds.bind (adds_add _) fun _ => Silent.pure (R := (· = isDoneTap level c.name)) rfl).mono ?_
    rintro m _ _ ⟨_, _, _, _, rfl, -, rfl, _, _, _, _, rfl, -, rfl, _, _, _, _, rfl, -, rfl,
      _, _, _, _, rfl, -, rfl, _, _, _, _, rfl, -, rfl, rfl, rfl⟩
    simp [handshakeItems, tapItems, startTap, isDoneTap, doneTap]
  refine hadds.mono ?_
  rintro m xs a ⟨rfl, rfl⟩
  exact ⟨wired_handshakeItems _ _ _, rfl, rfl⟩

/-- What adding an instance leaves: its reset and, unless it runs on its own, its handshake. -/
structure Placed (level : Nat) (c : Placement) (items : List Item) (finished : Option Pipeline) :
    Prop where
  reset : (resetTap level c.name).items (.ident resetPort) ⊆ items
  handshake : c.inst.isAutorun = false → handshakeItems level c.name ⊆ items
  finished : finished = if c.inst.isAutorun then none else some (isDoneTap level c.name)

/-- Starts an instance once and for all, or sets up its handshake. -/
def startChild (level : Nat) (c : Placement) : Build (Option Pipeline) :=
  if c.inst.isAutorun then do startAlways c.name; pure none
  else some <$> addHandshake level c (resetTap level c.name)

/-- The cell of an instance with its arguments bound. -/
def Plan.addCell (p : Plan) (c : Placement) (taps : List (String × Pipeline)) : Build Unit := do
  let bound ← p.bindArgs c taps c.inst.args
  Build.add [.cell { module := c.module.name, name := c.name
                     ports := handshakeBindings c (resetTap p.options.registerLevel c.name) ++
                       bound }]

theorem Plan.addChild_eq (p : Plan) (c : Placement) : p.addChild c = (do
    Build.pipeline (resetTap p.options.registerLevel c.name) (.ident resetPort)
    let taps ← p.delayArgs c c.inst.args
    let finished ← startChild p.options.registerLevel c
    p.addCell c taps
    return finished) := by
  unfold Plan.addChild startChild Plan.addCell
  split <;> simp only [bind_assoc, pure_bind] <;> rfl

theorem wires_startChild (level : Nat) (c : Placement) : (startChild level c).Wires fun xs a =>
    (c.inst.isAutorun = false → handshakeItems level c.name ⊆ xs) ∧
      a = if c.inst.isAutorun then none else some (isDoneTap level c.name) := by
  refine .ite (fun hc => ?_) fun hc => ?_
  · refine (Wires.bind (wires_startAlways c.name) fun _ => Wires.pure (P := fun _ a => a = none)
      rfl).mono ?_
    rintro _ _ ⟨xs, ys, _, rfl, -, rfl⟩
    simp [hc]
  · rw [map_eq_pure_bind]
    refine (Wires.bind (wires_addHandshake level c) fun q => Wires.pure
      (P := fun xs a => a = some q) rfl).mono ?_
    rintro _ _ ⟨_, ys, _, rfl, ⟨rfl, rfl⟩, rfl⟩
    simp [hc]

theorem Plan.declares_addCell (p : Plan) (c : Placement) (taps : List (String × Pipeline)) :
    (p.addCell c taps).Declares := .bind (p.declares_bindArgs c taps _) fun _ => .add rfl

theorem Plan.wires_addChild (p : Plan) (c : Placement) :
    (p.addChild c).Wires (Placed p.options.registerLevel c) := by
  rw [p.addChild_eq c]
  refine (Wires.bind (.pipeline _ _) fun _ => .bind (p.wires_delayArgs c _) fun taps =>
    .bind (wires_startChild _ c) fun a => .bind (.of_declares (p.declares_addCell c taps)) fun _ =>
    Wires.pure (P := fun _ b => b = a) rfl).mono ?_
  rintro _ _ ⟨_, _, _, rfl, rfl, xs, _, _, rfl, -, ys, _, a, rfl, ⟨hhs, hfin⟩, _, _, _, rfl, -, rfl⟩
  refine ⟨List.subset_append_left _ _, fun hc => ?_, hfin⟩
  exact fun i hi => by simp [hhs hc hi]

theorem Placed.mono {level : Nat} {c : Placement} {xs ys : List Item} {a : Option Pipeline}
    (h : Placed level c xs a) (hs : xs ⊆ ys) : Placed level c ys a :=
  ⟨List.Subset.trans h.reset hs, fun hc => List.Subset.trans (h.handshake hc) hs, h.finished⟩

theorem Plan.wires_addChildren (p : Plan) (cs : List Placement) :
    (p.addChildren cs).Wires fun xs finished =>
      finished = (cs.filter (!·.inst.isAutorun)).map (isDoneTap p.options.registerLevel ·.name) ∧
      ∀ c ∈ cs, ∃ a, Placed p.options.registerLevel c xs a := by
  induction cs with
  | nil => exact .pure (by simp)
  | cons c cs ih =>
    refine (Wires.bind (p.wires_addChild c) fun a => Wires.bind ih fun fin => Wires.pure
      (P := fun xs b => xs = [] ∧ b = a.toList ++ fin) ⟨rfl, rfl⟩).mono ?_
    rintro _ _ ⟨xs, _, a, rfl, hc, ys, _, _, rfl, ⟨rfl, hcs⟩, rfl, rfl⟩
    refine ⟨?_, fun c' hc' => ?_⟩
    · rw [hc.finished]
      by_cases h : c.inst.isAutorun <;> simp [h]
    · rcases List.mem_cons.1 hc' with rfl | hc'
      · exact ⟨a, hc.mono (by simp)⟩
      · obtain ⟨b, hb⟩ := hcs c' hc'
        exact ⟨b, hb.mono (by simp)⟩

/-! ### The whole module -/

/-- What stands between the registers of the controller and its logic. -/
def Plan.body (p : Plan) : Build (List Pipeline) := do
  Build.pipeline (startPipeline p.options.registerLevel) (.ident startPort)
  Build.pipeline (donePipeline p.options.registerLevel) (.equals (.ident stateReg) state10)
  p.task.fifos.forM p.addStream
  let finished ← p.addChildren p.children
  p.addAdapters
  return finished

theorem Plan.build_eq (p : Plan) : p.build = (do
    p.declareInterface
    Build.add ((controlSignals p.options.registerLevel).map .signal)
    let finished ← p.body
    Build.add ((controlLogic p.options.registerLevel finished).map .logic)
    Build.note p.task.name .debug "generated module"
      [("instances", .number p.children.length), ("fifos", .number p.task.fifoTable.length)]) := by
  unfold Plan.build Plan.body declareControl
  simp only [bind_assoc, pure_bind]
  rfl

/-- The names of the instances that are waited for. -/
def Plan.waited (p : Plan) : List String :=
  (p.children.filter (!·.inst.isAutorun)).map Placement.name

theorem Plan.wires_body (p : Plan) : p.body.Wires fun xs finished =>
    (startPipeline p.options.registerLevel).items (.ident startPort) ⊆ xs ∧
    (donePipeline p.options.registerLevel).items (.equals (.ident stateReg) state10) ⊆ xs ∧
    finished = p.waited.map (isDoneTap p.options.registerLevel) ∧
    ∀ c ∈ p.children, ∃ a, Placed p.options.registerLevel c xs a := by
  refine (Wires.bind (.pipeline _ _) fun _ => .bind (.pipeline _ _) fun _ =>
    .bind (.forM _ fun f _ => p.wires_addStream f) fun _ => .bind (p.wires_addChildren _) fun fin =>
    .bind (.of_declares p.declares_addAdapters) fun _ =>
    Wires.pure (P := fun _ b => b = fin) rfl).mono ?_
  rintro _ _ ⟨_, _, _, rfl, rfl, _, _, _, rfl, rfl, xs, _, _, rfl, -, ys, _, _, rfl, ⟨rfl, hcs⟩,
    zs, _, _, rfl, -, rfl⟩
  refine ⟨fun i hi => by simp [hi], fun i hi => by simp [hi], ?_, fun c hc => ?_⟩
  · rw [waited, List.map_map]
    rfl
  · obtain ⟨a, ha⟩ := hcs c hc
    exact ⟨a, ha.mono fun i hi => by simp [hi]⟩

theorem wired_resetItems (ports : List String) : Wired ports resetItems :=
  .of_no_blocks rfl fun a ha => .inl (by
    rw [show a = (resetWire, .unary .complement (.ident resetPort)) from List.mem_singleton.1 ha]
    simp [wiresOf, signalsOf, resetItems, Item.signal?])

/-- The block of the controller assigns its two registers only. -/
theorem targets_controlLogic (level : Nat) (finished : List Pipeline) :
    ∀ b ∈ Circuit.blocksOf (controlLogic level finished), ∀ r ∈ Stmt.allTargets b,
      r ∈ registersOf ((controlSignals level).map .signal) := by
  intro b hb r hr
  rw [List.mem_singleton.1 hb] at hr
  have hreg : r = stateReg ∨ r = countdownReg := by
    simp only [controlStep, runningBody, Stmt.allTargets, Stmt.targets, Stmt.armTargets, setState,
      drainBody, enterDrain] at hr
    split at hr <;> simp [Stmt.allTargets, Stmt.targets] at hr <;> grind
  simp only [registersOf, controlSignals, signalsOf_map_signal]
  rcases hreg with rfl | rfl <;> simp

theorem driven_controlLogic (level : Nat) (finished : List Pipeline) :
    ∀ a ∈ Circuit.assignsOf (controlLogic level finished), a.1 ∈ handshakePorts := by
  intro a ha
  have hport : a.1 = idlePort ∨ a.1 = donePort ∨ a.1 = readyPort := by
    simp only [controlLogic, Circuit.assignsOf, List.filterMap_cons, List.filterMap_nil,
      List.mem_cons, List.not_mem_nil, or_false] at ha
    rcases ha with rfl | rfl | rfl <;> simp
  rcases hport with h | h | h <;> simp [h, handshakePorts]

theorem Plan.layout_build (p : Plan) : p.build.Adds fun m zs _ =>
    m.ports = [] → Layout p.options.registerLevel p.waited zs := by
  rw [p.build_eq]
  refine (Adds.bind p.adds_declareInterface fun _ => Adds.bind (adds_add _) fun _ =>
    Adds.bind p.wires_body fun fin => Adds.bind (adds_add _) fun _ => silent_note _ _ _ _).mono ?_
  rintro m _ _ ⟨_, _, _, m₁, rfl, hm₁, ⟨iface, rfl, hiface, hports⟩, _, _, _, m₂, rfl, hm₂, rfl,
    body, _, _, m₃, rfl, -, ⟨hbody, hstart, hdone, rfl, hplaced⟩, _, _, _, _, rfl, -, rfl, rfl, -⟩
    hm
  have hports' : ∀ n ∈ handshakePorts, n ∈ portNamesOf (iface ++ resetItems) := by
    intro n hn
    obtain ⟨q, hq, rfl⟩ := hports n hn
    rw [hm, List.nil_append] at hq
    rw [portNamesOf_append, List.mem_append]
    exact .inl (List.mem_map_of_mem hq)
  have hbody' : Wired (portNamesOf (iface ++ resetItems)) body := by
    rw [portNames_of_addAll hm₂, portNames_of_addAll hm₁, portNames, hm, portNamesOf_signals,
      List.append_nil] at hbody
    exact hbody
  have hsub : body ⊆ iface ++ resetItems ++ ((controlSignals p.options.registerLevel).map .signal ++
      (body ++ (controlLogic p.options.registerLevel
        (p.waited.map (isDoneTap p.options.registerLevel))).map .logic)) := fun i hi => by simp [hi]
  have hchild : ∀ n ∈ p.waited, ∃ c ∈ p.children, c.inst.isAutorun = false ∧ c.name = n := by
    intro n hn
    obtain ⟨c, hc, rfl⟩ := List.mem_map.1 hn
    rw [List.mem_filter] at hc
    exact ⟨c, hc.1, by simpa using hc.2, rfl⟩
  rw [List.append_nil]
  refine ⟨?_, ?_, fun i hi => by simp [hi], fun i hi => by simp [hi],
    List.Subset.trans hstart hsub, List.Subset.trans hdone hsub, fun i hi => by simp [hi], ?_, ?_⟩
  · -- the controller's registers are declared before the body, its logic comes after it
    refine (Wired.append (.of_no_logic hiface) (wired_resetItems _)).append (Wired.enclose hbody'
      (targets_controlLogic _ _) (List.pairwise_singleton _ _) fun a ha => .inr (.inr ?_))
    exact hports' _ (driven_controlLogic _ _ a ha)
  · intro n hn
    obtain ⟨q, hq, hname⟩ := mem_portNamesOf.1 (hports' n hn)
    exact ⟨q, List.mem_append_left _ hq, hname⟩
  · intro n hn
    obtain ⟨c, hc, -, rfl⟩ := hchild n hn
    obtain ⟨a, ha⟩ := hplaced c hc
    exact List.Subset.trans ha.reset hsub
  · intro n hn
    obtain ⟨c, hc, hauto, rfl⟩ := hchild n hn
    obtain ⟨a, ha⟩ := hplaced c hc
    exact List.Subset.trans (ha.handshake hauto) hsub

theorem inst_placements {parts : Parts} {task : String} {insts : List Instance}
    {cs : List Placement} (h : placements parts task insts = .ok cs) :
    cs.map Placement.inst = insts := by
  induction insts generalizing cs with
  | nil => cases h; rfl
  | cons i insts ih =>
    unfold placements at h
    split at h
    · cases h
    · rename_i m hm
      cases hr : placements parts task insts with
      | error e => simp [hr, bind, Except.bind] at h
      | ok cs' =>
        simp only [hr, bind, Except.bind, pure, Except.pure] at h
        cases h
        simp [ih hr]

theorem plan_ok {o : Options} {program : Program} {parts : Parts} {t : Task} {p : Plan}
    (h : plan o program parts t = .ok p) : ∃ insts cs, program.instances t = .ok insts ∧
      placements parts t.name insts = .ok cs ∧ p = ⟨o, program, parts, t, cs⟩ := by
  unfold plan at h
  simp only [bind, Except.bind, pure, Except.pure] at h
  split at h
  · cases h
  · split at h
    · cases h
    · rename_i insts hi
      cases hcs : placements parts t.name insts with
      | error e => simp [hcs] at h
      | ok cs =>
        rw [hcs] at h
        exact ⟨insts, cs, hi, hcs, (Except.ok.inj h).symm⟩

/-- The names of the instances of a task that its composite starts and waits for. -/
def waitedNames (insts : List Instance) : List String :=
  (insts.filter (!·.isAutorun)).map Instance.name

theorem mem_waitedNames {insts : List Instance} {i : Instance} (hi : i ∈ insts)
    (hauto : i.isAutorun = false) : i.name ∈ waitedNames insts :=
  List.mem_map_of_mem (List.mem_filter.2 ⟨hi, by simp [hauto]⟩)

theorem forall_waitedNames {insts : List Instance} {P : String → Prop} :
    (∀ n ∈ waitedNames insts, P n) ↔ ∀ i ∈ insts, i.isAutorun = false → P i.name := by
  constructor
  · exact fun h i hi hauto => h _ (mem_waitedNames hi hauto)
  · intro h n hn
    obtain ⟨i, hi, rfl⟩ := List.mem_map.1 hn
    rw [List.mem_filter] at hi
    exact h i hi.1 (by simpa using hi.2)

/-- A generated module has the layout of a composite that waits for the instances of its task that
do not run on their own. -/
theorem generateTask_layout {o : Options} {program : Program} {parts : Parts} {t : Task}
    {m : Module} (h : (generateTask o program parts t).2 = .ok m) :
    ∃ insts items, program.instances t = .ok insts ∧
      (Module.new t.name).addAll items = .ok m ∧
      Layout o.registerLevel (waitedNames insts) items := by
  unfold generateTask at h
  split at h
  · cases h
  · rename_i p hp
    split at h
    · rename_i d hd
      cases h
      obtain ⟨items, hitems, hlayout⟩ := p.layout_build _ _ _ hd
      obtain ⟨insts, cs, hinsts, hcs, rfl⟩ := plan_ok hp
      refine ⟨insts, items, hinsts, hitems, ?_⟩
      have hwaited : Plan.waited ⟨o, program, parts, t, cs⟩ = waitedNames insts := by
        rw [← inst_placements hcs, waitedNames, List.filter_map, List.map_map]
        rfl
      exact hwaited ▸ hlayout rfl
    · cases h

end TaskLoom
