import TaskLoom.Proofs.Composite.Layout
import TaskLoom.Proofs.Composite.Scoped

/-!
# The parts of a composite within scope

One statement for each part of a composite: which symbols it needs, and which ones it leaves behind.
Only `Plan.scoped_delayArg` has to look into the draft, since it adds what may be misled.
-/

namespace TaskLoom

open Build

namespace Plan

variable {p : Plan} {late : Bool}

section
variable {K : List String}

theorem scoped_addInterface (name : String) (c : Category) (width : Int) :
    p.Scoped late K (p.addInterface name c width) fun _ => [] :=
  .reads_bind (p.reads_interfacePorts name c width) fun ps _ => (Scoped.ports ps).unit

theorem scoped_deriveArg (c : Placement) (a : Arg) :
    p.Scoped late K (p.deriveArg c a) fun _ => [] := by
  have hnil : ([] : List String) ⊆ K := List.nil_subset _
  unfold deriveArg
  refine .reads_bind reads_module fun m _ => .ite (fun _ => .pure hnil) fun _ => ?_
  refine .ite (fun _ => ?_) fun _ => .ite (fun _ => ?_) fun _ => scoped_addInterface _ _ _
  · split
    · exact .pure hnil
    · refine .ite (fun _ => ?_) fun _ => .pure hnil
      exact .reads_bind (c.reads_portWidth _ _) fun w _ => scoped_addInterface _ _ _
  · exact .reads_bind (c.reads_portWidth _ _) fun w _ => scoped_addInterface _ _ _

theorem scoped_resetItems (h : resetPort ∈ K) :
    p.Scoped late K (Build.add resetItems) fun _ => [resetWire] := by
  refine (Scoped.add resetItems (fun i hi n hn => ?_) fun _ c hc => ?_).mono
    (List.Subset.refl K) fun _ => List.subset_append_right _ _
  · rcases List.mem_cons.1 hi with rfl | hi
    · cases hn
    · rw [List.mem_singleton.1 hi] at hn
      rcases List.mem_cons.1 hn with rfl | hn
      · exact .inr (.head _)
      · exact .inl (List.mem_singleton.1 hn ▸ h)
  · simp [resetItems] at hc

theorem scoped_declareInterface : p.Scoped late K p.declareInterface fun _ => outerNames := by
  have hrest (K : List String) : p.Scoped late K (Build.module >>= fun m =>
      requireHandshake m handshakePorts >>= fun _ => Build.add resetItems)
      fun _ => outerNames := by
    refine .module_bind fun m => .reads_bind (reads_requireHandshake m _) fun _ hports => ?_
    have hsub : handshakePorts ⊆ K ++ m.symbols := fun n hn => by
      obtain ⟨q, hq, rfl⟩ := hports n hn
      exact List.mem_append_right _ (Module.mem_symbols_of_port hq)
    refine (scoped_resetItems (hsub (by decide))).mono (List.Subset.refl _) fun _ n hn => ?_
    rcases List.mem_cons.1 hn with rfl | hn
    · exact List.mem_append_right _ (.head _)
    · exact List.mem_append_left _ (hsub hn)
  unfold declareInterface
  split
  · refine .bind (Scoped.bind (Scoped.ports _).unit fun _ => (Scoped.declare fun i hi => ?_).unit)
      fun _ => hrest _
    obtain ⟨q, -, rfl⟩ := List.mem_map.1 hi
    exact ⟨rfl, fun c => by simp⟩
  · refine .bind (N := fun _ => []) (Scoped.bind (Scoped.ports _).unit fun _ => ?_) fun _ => hrest _
    refine .ite (fun _ => ?_) fun _ => ?_
    · refine (Scoped.forM _ (fun _ => []) fun c _ => ?_).unit
      exact (Scoped.forM _ (fun _ => []) fun a _ => scoped_deriveArg c a).unit
    · exact (Scoped.forM _ (fun _ => []) fun q _ => scoped_addInterface _ _ _).unit

/-- The names of the control that the rest of a module refers to. -/
def controlNames (level : Nat) : List String :=
  [stateReg, countdownReg] ++ ((startPipeline level).stageNames ++ (donePipeline level).stageNames)

theorem scoped_declareControl (level : Nat) (h : outerNames ⊆ K) :
    p.Scoped late K (declareControl level) fun _ => controlNames level := by
  refine .bind (Scoped.signals [_, _]) fun _ => .bind (Scoped.pipeline ?_) fun _ => ?_
  · intro n hn
    rw [List.mem_singleton.1 hn]
    exact List.mem_append_left _ (h (by decide))
  · refine (Scoped.pipeline (K := [stateReg]) ?_).mono ?_ fun _ => ?_
    · exact fun n hn => by simpa [Expr.names, stateCode] using hn
    · simp
    · simp [controlNames]

end

end Plan

/-- The wires of a stream. -/
def Fifo.wireNames (f : Fifo) : List String :=
  (readSide.suffixes ++ writeSide.suffixes).map (streamWire f.name)

theorem Fifo.wireNames_subset (f : Fifo) (width : Int) :
    f.wireNames ⊆ (streamWires f.name width).map Signal.name := by
  simp [Fifo.wireNames, streamWires, readSide, writeSide, StreamSide.suffixes]

theorem names_streamBuffer (f : Fifo) (width : Int) :
    (streamBuffer f.name width f.depth).names ⊆ outerNames ++ f.wireNames := by
  simp [streamBuffer, Cell.names, Expr.names, intLiteral, outerNames, handshakePorts,
    Fifo.wireNames, StreamSide.suffixes]

theorem names_streamMonitor (f : Fifo) : (streamMonitor f.name).names ⊆ f.wireNames := by
  simp [streamMonitor, Logic.names, Stmt.allNames, Stmt.names, Expr.names, Expr.allNames,
    Fifo.wireNames, StreamSide.suffixes]

namespace Plan

section
variable {p : Plan} {late : Bool} {K : List String}

theorem scoped_connectExternal (f : Fifo) (h : f.wireNames ⊆ K) :
    p.Scoped late K (connectExternal f) fun _ => [] := by
  refine .module_bind fun m => ?_
  have hport {suffix : String} {q : Port} (hq : m.portOf f.name suffix = .ok q) :
      q.name ∈ K ++ m.symbols :=
    List.mem_append_right _ (List.mem_append_left _ (portOf_mem hq))
  have hside : (if f.consumer.isSome then readSide else writeSide) ∈ [readSide, writeSide] := by
    split <;> simp
  simp only
  generalize (if f.consumer.isSome then readSide else writeSide) = side at hside ⊢
  have hwire (suffix : String) (hs : suffix ∈ side.suffixes) :
      streamWire f.name suffix ∈ K ++ m.symbols := by
    refine List.mem_append_left _ (h (List.mem_map_of_mem (List.mem_append.2 ?_)))
    rcases List.mem_cons.1 hside with rfl | hside
    · exact .inl hs
    · exact .inr (List.mem_singleton.1 hside ▸ hs)
  have hdata := hwire side.data (by simp [StreamSide.suffixes])
  have hflag := hwire side.flag (by simp [StreamSide.suffixes])
  have henable := hwire side.enable (by simp [StreamSide.suffixes])
  refine .reads_bind (reads_require _) fun data hd => ?_
  refine .reads_bind (reads_require _) fun flag hf => ?_
  refine .reads_bind (reads_require _) fun enable he => Scoped.logics [_, _, _] ?_
  have hd := hport hd
  have hf := hport hf
  have he := hport he
  split <;> simp [Logic.names, Expr.names, *]

theorem scoped_addStream {f : Fifo} (hf : f ∈ p.task.fifoTable) (h : outerNames ⊆ K) :
    p.Scoped late K (p.addStream f) fun _ => f.wireNames := by
  refine .reads_bind f.reads_checkSides fun _ _ => .reads_bind (p.reads_streamWidth f) fun w _ => ?_
  have hwires : p.Scoped late K (Build.add ((streamWires f.name w).map .signal))
      fun _ => f.wireNames :=
    (Scoped.signals _).mono (List.Subset.refl K) fun _ =>
      List.subset_append_of_subset_right _ (f.wireNames_subset w)
  have hnames : f.wireNames ⊆ K ++ f.wireNames := List.subset_append_right _ _
  refine .bind hwires fun _ => .ite (fun _ => ?_) fun hext =>
    .bind (N := fun _ => []) ?_ fun _ => ?_
  · exact (scoped_connectExternal f hnames).mono (List.Subset.refl _) fun _ => by simp
  · refine Scoped.cell (List.Subset.trans (names_streamBuffer f w) ?_)
      fun _ => .inl ⟨f, hf, ?_, rfl⟩
    · exact List.append_subset.2 ⟨List.subset_append_of_subset_left _ h, hnames⟩
    · simpa using hext
  · refine .ite (fun _ => ?_) fun _ => .pure (by simp)
    refine (Scoped.logics [streamMonitor f.name] ?_).mono (List.Subset.refl _) fun _ => ?_
    · simpa using List.subset_append_of_subset_right K (names_streamMonitor f)
    · simp

variable {c : Placement} {a : Arg}

/-- What drives an argument is a constant or a declared name. -/
theorem names_argSource {d d' : Draft} {s : Expr × Int} (h : p.argSource c a d = .ok s d') :
    ∀ n ∈ s.1.names, s.1 = .ident n ∧ n ∈ a.sources ∧ d.module.declared n = true := by
  unfold argSource at h
  cases hconst : Literal.sized? a.name with
  | some c =>
    rw [hconst] at h
    cases h
    intro n hn
    cases hn
  | none =>
    rw [hconst] at h
    obtain ⟨m, d₁, hm, h⟩ := bind_ok.1 h
    cases hm
    cases hsignal : parentSignal? d.module a with
    | none =>
      rw [hsignal] at h
      cases h
    | some signal =>
      rw [hsignal] at h
      have hseed : s.1 = .ident signal := by
        cases hmmap : a.category.isMmap with
        | true =>
          simp only [hmmap, if_true] at h
          cases h
          rfl
        | false =>
          simp only [hmmap] at h
          obtain ⟨w, d₂, -, h⟩ := bind_ok.1 h
          cases h
          rfl
      intro n hn
      rw [hseed] at hn ⊢
      rw [List.mem_singleton.1 hn]
      exact ⟨rfl, List.mem_of_find?_eq_some hsignal, List.find?_some hsignal⟩

/-- An identifier that an argument was found to be is a symbol, or else it is the name of a cell. -/
theorem symbol_or_misled (hc : c ∈ p.children) (ha : a ∈ c.inst.args)
    (hstream : a.category.isStream = false) {d : Draft} {s : Expr × Int} (hd : p.InScope false d)
    (hs : p.argSource c a d = .ok s d) {m' : Module} (hsymbols : d.module.symbols ⊆ m'.symbols)
    (hcells : d.module.cells ⊆ m'.cells)
    (hdriven : .assign (instanceArg c.name a.name ++ "__q0") s.1 ∈ m'.logics) {n : String}
    (hn : n ∈ s.1.names) : n ∈ m'.symbols ∨ Misled p.task p.placed m' n := by
  obtain ⟨hseed, hsource, hdeclared⟩ := names_argSource hs n hn
  rw [hseed] at hdriven
  by_cases hsymbol : n ∈ d.module.symbols
  · exact .inl (hsymbols hsymbol)
  · obtain ⟨k, hk, hname⟩ := Module.cell_of_declared hd.tallied hdeclared hsymbol
    exact .inr ⟨⟨c.inst, List.mem_map_of_mem hc, a, ha, hstream, hsource, hdriven⟩,
      ⟨k, hcells hk, hname⟩, hname ▸ hd.cells rfl k hk⟩

/-- The one step that may refer to the name of a cell. -/
theorem scoped_delayArg (hc : c ∈ p.children) (ha : a ∈ c.inst.args) :
    p.Scoped false K (p.delayArg c a) fun tap => tap.toList.map (·.2.last) := by
  have hdelay (hstream : a.category.isStream = false) : p.Scoped false K (do
      let s ← p.argSource c a
      let q := Pipeline.make (instanceArg c.name a.name) p.options.registerLevel s.2
      Build.pipeline q s.1
      modify fun d => { d with taps := (a.name, q) :: d.taps }
      return some (a.name, q)) fun tap => tap.toList.map (·.2.last) := by
    intro d tap d' hd hK hr
    obtain ⟨s, d₁, hs, hr₁⟩ := bind_ok.1 hr
    obtain ⟨rfl, -⟩ := p.reads_argSource c a _ _ _ hs
    obtain ⟨⟨⟩, d₂, hpipeline, hr₂⟩ := bind_ok.1 hr₁
    obtain ⟨m', hm', rfl⟩ := add_ok hpipeline
    cases hr₂
    generalize hq : Pipeline.make (instanceArg c.name a.name) p.options.registerLevel s.2 = q at *
    have hm := Module.addAll_eq hm'
    have hstages : q.stageNames ⊆ m'.symbols := fun n hn => by
      rw [hm, Module.mem_symbols_pushAll, Pipeline.symbolsOf_items]
      exact .inr hn
    have hdriven : .assign (instanceArg c.name a.name ++ "__q0") s.1 ∈ m'.logics := by
      have hfirst : q.first = instanceArg c.name a.name ++ "__q0" := by
        rw [← hq]
        exact String.append_assoc
      rw [hm, Module.logics_pushAll, ← hfirst]
      exact List.mem_append_right _ (mem_logicsOf.2 (by simp [Pipeline.items, Pipeline.logic]))
    have huses : ∀ i ∈ q.items s.1, ∀ n ∈ i.uses,
        n ∈ m'.symbols ∨ Misled p.task p.placed m' n := by
      intro i hi n hn
      rcases q.uses_items s.1 hi hn with hn | hn
      · refine symbol_or_misled hc ha hstream hd hs (fun x hx => ?_) (fun k hk => ?_) hdriven hn
        · rw [hm, Module.mem_symbols_pushAll]
          exact .inl hx
        · rw [hm, Module.mem_cells_pushAll]
          exact .inl hk
      · exact .inl (hstages hn)
    obtain ⟨hd', hsub⟩ := hd.addAll hm' huses fun _ k hk => by
      rcases List.mem_append.1 hk with hk | hk <;> simp at hk
    refine ⟨⟨hd'.uses, hd'.cells, fun tap htap => ?_, hd'.channels, hd'.tallied⟩, hsub, ?_⟩
    · rcases List.mem_cons.1 htap with rfl | htap
      · exact hstages q.last_mem
      · exact hd'.taps tap htap
    · simpa using hstages q.last_mem
  unfold delayArg
  refine .guarded (.ite (fun _ => .pure (List.nil_subset _)) fun hstream => ?_)
  exact hdelay (by simpa using hstream)

theorem scoped_delayArgs (hc : c ∈ p.children) {as : List Arg} (has : as ⊆ c.inst.args) :
    p.Scoped false K (p.delayArgs c as) fun taps => taps.map (·.2.last) := by
  induction as generalizing K with
  | nil => exact .pure (List.nil_subset _)
  | cons a as ih =>
    obtain ⟨ha, has⟩ := List.cons_subset.1 has
    refine .bind (scoped_delayArg hc ha) fun tap => .bind (ih has) fun taps => .pure ?_
    simp

/-! ### Instances -/

/-- The signals by which an instance is started and tells its state. -/
def statusNames (c : Placement) : List String :=
  if c.inst.isAutorun then [instanceStart c.name]
  else (handshakeSignals c.name).map Signal.name

theorem scoped_startAlways (placed : String) :
    p.Scoped late K (startAlways placed) fun _ => [instanceStart placed] := by
  refine (Scoped.add _ (fun i hi n hn => ?_) fun _ c hc => ?_).mono (List.Subset.refl K)
    fun _ => List.subset_append_right _ _
  · rcases List.mem_cons.1 hi with rfl | hi
    · cases hn
    · rw [List.mem_singleton.1 hi] at hn
      rw [List.mem_singleton.1 hn]
      exact .inr (.head _)
  · simp at hc

/-- What the controller of an instance refers to. -/
theorem names_handshakeLogic (placed : String) (reset start done : Pipeline) :
    ∀ l ∈ handshakeLogic placed reset start done,
      l.names ⊆ [reset.last, start.last, done.last] ++
        (handshakeSignals placed).map Signal.name := by
  simp [handshakeLogic, handshakeStep, handshakeSignals, setState, stateCode, Logic.names,
    Stmt.allNames, Stmt.names, Stmt.armNames, Expr.names]

theorem scoped_addHandshake (level : Nat) (h : controlNames level ⊆ K)
    (hreset : (resetTap level c.name).last ∈ K) :
    p.Scoped late K (addHandshake level c (resetTap level c.name)) fun finished =>
      (handshakeSignals c.name).map Signal.name ++ [finished.last] := by
  have hstart : (startPipeline level).first ∈ K :=
    h (by simp [controlNames, Pipeline.first_mem])
  have hdone : (donePipeline level).first ∈ K :=
    h (by simp [controlNames, Pipeline.first_mem])
  refine .reads_bind (reads_requireControls c _) fun _ _ => .bind (Scoped.signals _) fun _ => ?_
  refine .bind (Scoped.pipeline (by simp [Expr.names, hstart])) fun _ => ?_
  refine .bind (Scoped.pipeline (by simp [Expr.names, stateCode, handshakeSignals])) fun _ => ?_
  refine .bind (Scoped.pipeline (by simp [Expr.names, hdone])) fun _ => ?_
  refine .bind (Scoped.logics _ fun l hl => ?_) fun _ => .pure ?_
  · refine List.Subset.trans (names_handshakeLogic _ _ _ _ l hl) (List.append_subset.2 ⟨?_, ?_⟩)
    · simp [hreset, Pipeline.last_mem]
    · grind
  · simp [Pipeline.last_mem]

theorem scoped_startChild (level : Nat) (h : controlNames level ⊆ K)
    (hreset : (resetTap level c.name).last ∈ K) :
    p.Scoped late K (startChild level c) fun finished =>
      statusNames c ++ finished.toList.map Pipeline.last := by
  unfold startChild statusNames
  refine .ite (fun hauto => ?_) fun hauto => ?_
  · refine .bind (scoped_startAlways c.name) fun _ => .pure ?_
    simp [hauto]
  · rw [map_eq_pure_bind]
    refine .bind (scoped_addHandshake level h hreset) fun finished => .pure ?_
    simp [hauto]

/-- The identifiers of some bindings. -/
def argNames (bound : List Binding) : List String := bound.flatMap (·.arg.names)

def busNames (arg : String) : List String := busPorts.map fun (ch, q) => busPort arg ch q.name

theorem scoped_declareBus (arg : String) (width : Int) :
    p.Scoped late K (p.declareBus arg width) fun _ => busNames arg := by
  let ps : List Port := busPorts.map fun (ch, q) =>
    ⟨busPort arg ch q.name, q.direction, busRange p.options.addressWidth width q.name⟩
  have hitems : p.Scoped late K (Build.add (ps.map .port)) fun _ => ps.map Port.name :=
    Scoped.ports ps
  rw [List.map_map, List.map_map] at hitems
  exact hitems

/-- Whatever streams the instances use are streams of the task. -/
def Fed (p : Plan) : Prop := ∀ c ∈ p.children, ∀ a ∈ c.inst.args, a.category.isStream = true →
  ∃ f ∈ p.task.fifoTable, f.name = a.name

theorem names_busBindings (port arg name : String) (tap : Expr) :
    argNames (busPorts.map (fun (ch, r) =>
      Binding.mk (busPort port ch r.name) (.ident (busPort arg ch r.name))) ++ [⟨name, tap⟩]) ⊆
        busNames arg ++ tap.names := by
  simp only [argNames, busNames, List.flatMap_append, List.flatMap_map, Expr.names]
  refine List.append_subset.2 ⟨?_, by simp⟩
  intro n hn
  obtain ⟨x, hx, hn⟩ := List.mem_flatMap.1 hn
  rw [List.mem_singleton.1 hn]
  exact List.mem_append_left _ (List.mem_map_of_mem hx)

theorem scoped_bindBus {tap : Expr} (htap : tap.names ⊆ K) :
    p.Scoped late K (p.bindBus c a tap) argNames := by
  unfold bindBus
  refine .reads_bind (p.reads_dataWidth c a) fun w _ => .bind (scoped_declareBus _ _) fun _ => ?_
  have hnames : busNames a.name ++ tap.names ⊆ K ++ busNames a.name :=
    List.append_subset.2 ⟨List.subset_append_right _ _, List.subset_append_of_subset_left _ htap⟩
  split
  · exact .throw
  · refine .ite (fun _ => .bind (.note _ _ _ _) fun _ => .pure ?_) fun _ => .pure ?_
    · rw [List.append_nil]
      exact List.Subset.trans (names_busBindings _ _ _ _) hnames
    · exact List.Subset.trans (names_busBindings _ _ _ _) hnames

/-- The wires of some channels of a memory. -/
def channelNamesOf (arg : String) (channels : List String) : List String :=
  channels.flatMap fun ch => (channelSide ch).suffixes.map (channelWire arg ch)

theorem symbolsOf_channelItems (p : Plan) (arg ch : String) (width : Int) :
    symbolsOf (p.channelItems arg ch width) =
      (channelSide ch).suffixes.map (channelWire arg ch) := by
  unfold channelItems
  cases p.isTop <;> simp [symbolsOf, List.filterMap_map, Function.comp_def, Item.symbol?]

theorem scoped_declareChannels (arg : String) (channels : List String) (width : Int) :
    p.Scoped late K (Build.add (channels.flatMap fun ch => p.channelItems arg ch width))
      fun _ => channelNamesOf arg channels := by
  refine (Scoped.declare (K := K) fun i hi => ?_).mono (List.Subset.refl K) fun _ => ?_
  · obtain ⟨ch, -, hi⟩ := List.mem_flatMap.1 hi
    unfold channelItems at hi
    obtain ⟨suffix, -, rfl⟩ := List.mem_map.1 hi
    split <;> exact ⟨rfl, fun c => by simp⟩
  · simp only [symbolsOf, List.filterMap_flatMap]
    refine List.subset_append_of_subset_right _ fun n hn => ?_
    obtain ⟨ch, hch, hn⟩ := List.mem_flatMap.1 hn
    exact List.mem_flatMap.2 ⟨ch, hch, by rwa [← symbolsOf_channelItems p arg ch width] at hn⟩

/-- The draft remembers channels of which the wires are there. -/
theorem scoped_useChannels {u : ChannelUse} (h : channelNamesOf u.arg u.channels ⊆ K) :
    p.Scoped late K (modify fun d => { d with channelUses := d.channelUses ++ [u] })
      fun _ => [] := by
  intro d x d' hd hK hr
  cases hr
  refine ⟨⟨hd.uses, hd.cells, hd.taps, fun u' hu' ch hch suffix hs => ?_, hd.tallied⟩,
    fun _ h => h, List.nil_subset _⟩
  rcases List.mem_append.1 hu' with hu' | hu'
  · exact hd.channels u' hu' ch hch suffix hs
  · rw [List.mem_singleton.1 hu'] at hch ⊢
    exact hK (h (List.mem_flatMap.2 ⟨ch, hch, List.mem_map_of_mem hs⟩))

theorem names_channelBindings (m : Module) (a : Arg) (channels : List String) :
    argNames (channels.flatMap (channelBindings m a)) ⊆ channelNamesOf a.name channels := by
  intro n hn
  simp only [argNames, List.flatMap_assoc, List.mem_flatMap] at hn
  obtain ⟨ch, hch, b, hb, hn⟩ := hn
  obtain ⟨suffix, hs, hb⟩ := List.mem_filterMap.1 hb
  obtain ⟨q, -, rfl⟩ := Option.map_eq_some_iff.1 hb
  rw [List.mem_singleton.1 hn]
  exact List.mem_flatMap.2 ⟨ch, hch, List.mem_map_of_mem hs⟩

theorem scoped_bindChannels {tap : Expr} (htap : tap.names ⊆ K) :
    p.Scoped late K (p.bindChannels c a tap) argNames := by
  unfold bindChannels
  refine .reads_bind (p.reads_dataWidth c a) fun w _ => .bind (scoped_declareChannels _ _ _)
    fun _ => ?_
  refine .guarded (.bind (.note _ _ _ _) fun _ => .bind (scoped_useChannels ?_) fun _ => .pure ?_)
  · simp
  · rw [argNames, List.flatMap_append]
    refine List.append_subset.2
      ⟨List.Subset.trans (names_channelBindings _ _ _) (by simp), fun n hn => ?_⟩
    have htap' : n ∈ tap.names := by
      simp only [List.mem_flatMap, List.mem_map] at hn
      obtain ⟨_, ⟨_, -, rfl⟩, hn⟩ := hn
      exact hn
    simp [htap htap']

theorem scoped_bindArg {tap : Expr} (htap : tap.names ⊆ K)
    (hwires : a.category.isStream = true →
      (readSide.suffixes ++ writeSide.suffixes).map (streamWire a.name) ⊆ K) :
    p.Scoped late K (p.bindArg c a tap) argNames := by
  have hstream (suffixes : List String) (hs : a.category.isStream = true)
      (hsub : suffixes ⊆ readSide.suffixes ++ writeSide.suffixes) :
      p.Scoped late K (bindStream c a suffixes) argNames := by
    intro d bound d' hd hK hr
    obtain ⟨rfl, hbound⟩ := reads_bindStream c a suffixes _ _ _ hr
    refine ⟨hd, fun _ h => h, fun n hn => ?_⟩
    obtain ⟨b, hb, hn⟩ := List.mem_flatMap.1 hn
    obtain ⟨suffix, hmem, he⟩ := hbound b hb
    rw [he] at hn
    rw [List.mem_singleton.1 hn]
    exact hK (hwires hs (List.mem_map_of_mem (hsub hmem)))
  unfold bindArg
  split
  · exact .reads_bind (reads_require _) fun q _ => .pure (by simpa [argNames] using htap)
  · rename_i hcat
    exact hstream _ (by rw [hcat]; rfl) (List.subset_append_left _ _)
  · rename_i hcat
    exact hstream _ (by rw [hcat]; rfl) (List.subset_append_right _ _)
  · exact scoped_bindBus htap
  · exact scoped_bindChannels htap
  · exact .throw

theorem scoped_bindArgs (hfed : p.Fed) (hc : c ∈ p.children)
    (hwires : p.task.fifoTable.flatMap Fifo.wireNames ⊆ K) {taps : List (String × Pipeline)}
    (htaps : taps.map (·.2.last) ⊆ K) {as : List Arg} (has : as ⊆ c.inst.args) :
    p.Scoped late K (p.bindArgs c taps as) argNames := by
  induction as generalizing K with
  | nil => exact .pure (List.nil_subset _)
  | cons a as ih =>
    obtain ⟨ha, has⟩ := List.cons_subset.1 has
    refine .bind (scoped_bindArg ?_ fun hs => ?_) fun bound =>
      .bind (ih ?_ ?_ has) fun rest => .pure ?_
    · split
      · rename_i name q hfind
        intro n hn
        rw [List.mem_singleton.1 hn]
        exact htaps (List.mem_map_of_mem (f := (·.2.last)) (List.mem_of_find?_eq_some hfind))
      · exact List.nil_subset _
    · obtain ⟨f, hf, hname⟩ := hfed c hc a ha hs
      rw [← hname]
      exact fun n hn => hwires (List.mem_flatMap.2 ⟨f, hf, hn⟩)
    · exact List.subset_append_of_subset_left _ hwires
    · exact List.subset_append_of_subset_left _ htaps
    · simp [argNames]

end

end Plan

end TaskLoom
