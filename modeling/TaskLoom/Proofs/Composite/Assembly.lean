import TaskLoom.Proofs.Composite.Closed

/-!
# What a composite is assembled from

A step on a draft adds ports, cells and channel uses (`Growth`), apart from inner signals and logic.
`Build.Extends b P`: whatever the step `b` adds satisfies `P`.  Most steps add inner signals and
logic only (`Build.Internal`).  An argument of an instance adds what its category asks for
(`Plan.Connects`), an instance the sum over its arguments and its cell (`Plan.Realizes`).

Main statement: the ports of a complete module are those of its interface, those that the arguments
of the instances ask for and the buses of the adapters; its cells are the buffers of the internal
streams, one cell for each instance, and one adapter for each use of channels
(`assembled_of_build`).
-/

namespace TaskLoom

/-- What a step adds to a draft.  Of the signals, only some are listed. -/
structure Growth where
  ports : List Port := []
  signals : List Signal := []
  cells : List Cell := []
  uses : List ChannelUse := []

namespace Growth

instance : Append Growth :=
  ⟨fun g h => ⟨g.ports ++ h.ports, g.signals ++ h.signals, g.cells ++ h.cells, g.uses ++ h.uses⟩⟩

variable (g h : Growth)

@[simp] theorem ports_append : (g ++ h).ports = g.ports ++ h.ports := rfl

@[simp] theorem signals_append : (g ++ h).signals = g.signals ++ h.signals := rfl

@[simp] theorem cells_append : (g ++ h).cells = g.cells ++ h.cells := rfl

@[simp] theorem uses_append : (g ++ h).uses = g.uses ++ h.uses := rfl

@[simp] theorem nil_append : ({} : Growth) ++ g = g := rfl

@[simp] theorem append_nil : g ++ ({} : Growth) = g := by
  obtain ⟨ps, ss, cs, us⟩ := g
  change Growth.mk (ps ++ []) (ss ++ []) (cs ++ []) (us ++ []) = _
  simp only [List.append_nil]

theorem append_uses (ps : List Port) (ss : List Signal) (us : List ChannelUse) :
    ({ ports := ps, signals := ss } : Growth) ++ ({ uses := us } : Growth) =
      { ports := ps, signals := ss, uses := us } := by
  change Growth.mk (ps ++ []) (ss ++ []) [] us = _
  simp only [List.append_nil]

/-- What several steps add one after the other. -/
def sum (gs : List Growth) : Growth :=
  ⟨gs.flatMap ports, gs.flatMap signals, gs.flatMap cells, gs.flatMap uses⟩

@[simp] theorem sum_nil : sum [] = {} := rfl

@[simp] theorem sum_cons (gs : List Growth) : sum (g :: gs) = g ++ sum gs := rfl

/-- What some items add. -/
def ofItems (items : List Item) : Growth := ⟨portsOf items, signalsOf items, cellsOf items, []⟩

end Growth

/-- The draft `d'` is `d` with some additions, and maybe further signals and logic. -/
structure Draft.Grew (d : Draft) (g : Growth) (d' : Draft) : Prop where
  ports : d'.module.ports = d.module.ports ++ g.ports
  signals : d.module.signals ++ g.signals ⊆ d'.module.signals
  cells : d'.module.cells = d.module.cells ++ g.cells
  uses : d'.channelUses = d.channelUses ++ g.uses

namespace Draft.Grew

variable {d d' d'' : Draft} {g h : Growth}

theorem refl (d : Draft) : d.Grew {} d := ⟨by simp, by simp, by simp, by simp⟩

theorem trans (hg : d.Grew g d') (hh : d'.Grew h d'') : d.Grew (g ++ h) d'' where
  ports := by rw [hh.ports, hg.ports, List.append_assoc]; rfl
  signals := by
    rw [Growth.signals_append, ← List.append_assoc]
    exact List.Subset.trans (List.append_subset.2 ⟨List.Subset.trans hg.signals
      (List.subset_append_left _ _), List.subset_append_right _ _⟩) hh.signals
  cells := by rw [hh.cells, hg.cells, List.append_assoc]; rfl
  uses := by rw [hh.uses, hg.uses, List.append_assoc]; rfl

/-- Not all signals need to be listed. -/
theorem drop_signals (hg : d.Grew g d') : d.Grew { g with signals := [] } d' :=
  ⟨hg.ports, List.Subset.trans (by simp) hg.signals, hg.cells, hg.uses⟩

end Draft.Grew

namespace Build

variable {α β : Type} {b : Build α} {f : α → Build β}

/-- If the step succeeds, what it adds satisfies `P` together with the result. -/
def Extends (b : Build α) (P : Growth → α → Prop) : Prop :=
  ∀ d a d', b d = .ok a d' → ∃ g, d.Grew g d' ∧ P g a

/-- A step that adds no ports, cells or channel uses. -/
def Internal (b : Build α) : Prop := b.Extends fun g _ => g = {}

namespace Extends

variable {P P' : Growth → α → Prop} {Q : β → Prop}

theorem mono (h : b.Extends P) (hP : ∀ g a, P g a → P' g a) : b.Extends P' := by
  intro d a d' hr
  obtain ⟨g, hg, hp⟩ := h d a d' hr
  exact ⟨g, hg, hP g a hp⟩

theorem pure {a : α} (h : P {} a) : Extends (Pure.pure a) P := by
  intro d a' d' hr
  cases hr
  exact ⟨{}, .refl d, h⟩

theorem throw {e : WiringError} : Extends (MonadExcept.throw e : Build α) P := by
  intro d a d' hr
  cases hr

theorem bind {Q : α → Growth → β → Prop} (h : b.Extends P) (hf : ∀ a, (f a).Extends (Q a)) :
    (b >>= f).Extends fun gh c => ∃ g h a, gh = g ++ h ∧ P g a ∧ Q a h c := by
  intro d c d' hr
  obtain ⟨a, d₁, hb, hr⟩ := bind_ok.1 hr
  obtain ⟨g, hg, hp⟩ := h d a d₁ hb
  obtain ⟨h, hh, hq⟩ := hf a d₁ c d' hr
  exact ⟨g ++ h, hg.trans hh, g, h, a, rfl, hp, hq⟩

theorem internal_bind {Q : Growth → β → Prop} (h : b.Internal) (hf : ∀ a, (f a).Extends Q) :
    (b >>= f).Extends Q := by
  refine (bind h hf).mono ?_
  rintro _ c ⟨_, h, a, rfl, rfl, hq⟩
  exact hq

theorem bind_internal {Q : Growth → β → Prop} (h : b.Extends fun g _ => ∀ c, Q g c)
    (hf : ∀ a, (f a).Internal) : (b >>= f).Extends Q := by
  refine (bind h hf).mono ?_
  rintro _ c ⟨g, _, a, rfl, hq, rfl⟩
  rw [Growth.append_nil]
  exact hq c

theorem reads_bind {R : α → Prop} {Q : Growth → β → Prop} (h : b.Reads R)
    (hf : ∀ a, R a → (f a).Extends Q) : (b >>= f).Extends Q := by
  intro d c d' hr
  obtain ⟨a, d₁, hb, hrest⟩ := bind_ok.1 hr
  obtain ⟨rfl, ha⟩ := h d a d₁ hb
  exact hf a ha _ c d' hrest

theorem ite {p : Prop} [Decidable p] {b' : Build α} (h : p → b.Extends P)
    (h' : ¬ p → b'.Extends P) : (if p then b else b').Extends P := by
  split
  · exact h ‹_›
  · exact h' ‹_›

theorem add (items : List Item) : (Build.add items).Extends fun g _ => g = .ofItems items := by
  intro d a d' hr
  obtain ⟨m, hm, rfl⟩ := add_ok hr
  rw [Module.addAll_eq hm]
  exact ⟨_, ⟨Module.ports_pushAll _ _, by
    rw [Module.signals_pushAll]
    exact List.Subset.refl _, Module.cells_pushAll _ _, by simp [Growth.ofItems]⟩, rfl⟩

end Extends

namespace Internal

theorem pure {a : α} : Internal (Pure.pure a) := Extends.pure rfl

theorem throw {e : WiringError} : Internal (MonadExcept.throw e : Build α) := Extends.throw

theorem bind (h : b.Internal) (hf : ∀ a, (f a).Internal) : (b >>= f).Internal :=
  Extends.internal_bind h hf

theorem reads_bind {R : α → Prop} (h : b.Reads R) (hf : ∀ a, R a → (f a).Internal) :
    (b >>= f).Internal := Extends.reads_bind h hf

theorem ite {p : Prop} [Decidable p] {b' : Build α} (h : p → b.Internal) (h' : ¬ p → b'.Internal) :
    (if p then b else b').Internal := Extends.ite h h'

theorem add {items : List Item} (hp : portsOf items = []) (hc : cellsOf items = []) :
    (Build.add items).Internal := by
  intro d a d' hr
  obtain ⟨_, hg, rfl⟩ := Extends.add items d a d' hr
  refine ⟨{}, ?_, rfl⟩
  have hgrew := hg.drop_signals
  rwa [Growth.ofItems, hp, hc] at hgrew

theorem signals (ss : List Signal) : (Build.add (ss.map .signal)).Internal :=
  .add (by simp [portsOf, List.filterMap_map, Function.comp_def, Item.port?])
    (by simp [cellsOf, List.filterMap_map, Function.comp_def, Item.cell?])

theorem logics (ls : List Logic) : (Build.add (ls.map .logic)).Internal :=
  .add (by simp [portsOf, List.filterMap_map, Function.comp_def, Item.port?])
    (by simp [cellsOf, List.filterMap_map, Function.comp_def, Item.cell?])

theorem pipeline (q : Pipeline) (seed : Expr) : (Build.pipeline q seed).Internal :=
  .add (by simp [Pipeline.items, portsOf, List.filterMap_map, Function.comp_def, Item.port?])
    (by simp [Pipeline.items, cellsOf, List.filterMap_map, Function.comp_def, Item.cell?])

theorem modify {g : Draft → Draft} (hm : ∀ d, (g d).module = d.module)
    (hu : ∀ d, (g d).channelUses = d.channelUses) : (modify g : Build Unit).Internal := by
  intro d a d' hr
  cases hr
  exact ⟨{}, ⟨by simp [hm], by simp [hm], by simp [hm], by simp [hu]⟩, rfl⟩

theorem note (task : String) (level : LogLevel) (message : String)
    (fields : List (String × LogValue)) : (Build.note task level message fields).Internal :=
  .modify (fun _ => rfl) fun _ => rfl

end Internal

end Build

open Build

/-- A name that a port of the interface of a plan can have: one of the skeleton, one of the
handshake, or that of a declared port or of an argument, with the ending of a role. -/
def Plan.OuterName (p : Plan) (n : String) : Prop :=
  match p.parts.skeleton? p.task.name with
  | some s => n ∈ portNames s
  | none => n ∈ handshakePorts ∨ ∃ stem, ((∃ q ∈ p.task.ports, q.name = stem) ∨
      ∃ c ∈ p.children, ∃ a ∈ c.inst.args, a.name = stem) ∧
      ∃ role ∈ "" :: (readSide.suffixes ++ writeSide.suffixes), n = stem ++ role

/-- A step that adds ports only, with names that satisfy `N`. -/
def Build.Ports {α : Type} (b : Build α) (N : String → Prop) : Prop :=
  b.Extends fun g _ => ∃ ps : List Port, g = { ports := ps } ∧ ∀ r ∈ ps, N r.name

namespace Build.Ports

variable {α β : Type} {b : Build α} {f : α → Build β} {N : String → Prop}

theorem of_internal (h : b.Internal) : b.Ports N :=
  Extends.mono h fun _ _ he => ⟨[], he, by simp⟩

theorem pure {a : α} : Ports (Pure.pure a) N := .of_internal .pure

theorem bind (h : b.Ports N) (hf : ∀ a, (f a).Ports N) : (b >>= f).Ports N := by
  refine (Extends.bind h hf).mono ?_
  rintro _ c ⟨_, _, a, rfl, ⟨ps, rfl, hps⟩, qs, rfl, hqs⟩
  exact ⟨ps ++ qs, rfl, fun r hr => (List.mem_append.1 hr).elim (hps r) (hqs r)⟩

theorem reads_bind {R : α → Prop} (h : b.Reads R) (hf : ∀ a, R a → (f a).Ports N) :
    (b >>= f).Ports N := Extends.reads_bind h hf

theorem ite {p : Prop} [Decidable p] {b' : Build α} (h : p → b.Ports N) (h' : ¬ p → b'.Ports N) :
    (if p then b else b').Ports N := Extends.ite h h'

theorem forM {f : α → Build PUnit} (l : List α) (h : ∀ a ∈ l, (f a).Ports N) :
    (l.forM f).Ports N := by
  induction l with
  | nil => exact .pure
  | cons a l ih => exact .bind (h a (by simp)) fun _ => ih fun b hb => h b (by simp [hb])

theorem add {ps : List Port} (h : ∀ r ∈ ps, N r.name) : (Build.add (ps.map .port)).Ports N := by
  refine (Extends.add _).mono fun g _ he => ⟨ps, ?_, h⟩
  rw [he, Growth.ofItems]
  simp [portsOf, signalsOf, cellsOf, List.filterMap_map, Function.comp_def, Item.port?,
    Item.signal?, Item.cell?]

end Build.Ports

namespace Plan

variable {p : Plan} {c : Placement} {a : Arg}

theorem names_interfacePorts {name : String} {k : Category} {width : Int} :
    (p.interfacePorts name k width).Reads fun ps => ∀ r ∈ ps,
      ∃ role ∈ "" :: (readSide.suffixes ++ writeSide.suffixes), r.name = name ++ role := by
  unfold interfacePorts
  cases k with
  | unknown code => exact .throw
  | istream => exact .pure (by simp [streamPorts, StreamSide.suffixes])
  | ostream => exact .pure (by simp [streamPorts, StreamSide.suffixes])
  | _ => exact .pure (by simp)

theorem ports_addInterface {N : String → Prop} {name : String} {k : Category} {width : Int}
    (h : ∀ role ∈ "" :: (readSide.suffixes ++ writeSide.suffixes), N (name ++ role)) :
    (p.addInterface name k width).Ports N := by
  refine .reads_bind names_interfacePorts fun ps hps => .add fun r hr => ?_
  obtain ⟨role, hrole, hname⟩ := hps r hr
  exact hname ▸ h role hrole

theorem ports_deriveArg {N : String → Prop}
    (h : ∀ role ∈ "" :: (readSide.suffixes ++ writeSide.suffixes), N (a.name ++ role)) :
    (p.deriveArg c a).Ports N := by
  unfold deriveArg
  refine .reads_bind reads_module fun m _ => .ite (fun _ => .pure) fun _ => ?_
  refine .ite (fun _ => ?_) fun _ => .ite (fun _ => ?_) fun _ => ports_addInterface h
  · split
    · exact .pure
    · refine .ite (fun _ => ?_) fun _ => .pure
      exact .reads_bind (c.reads_portWidth _ _) fun w _ => ports_addInterface h
  · exact .reads_bind (c.reads_portWidth _ _) fun w _ => ports_addInterface h

theorem ports_declareInterface (p : Plan) : p.declareInterface.Ports p.OuterName := by
  have hrest : Ports (Build.module >>= fun m => requireHandshake m handshakePorts >>= fun _ =>
      Build.add resetItems) p.OuterName :=
    .reads_bind reads_module fun m _ => .reads_bind (reads_requireHandshake m _) fun _ _ =>
      .of_internal (.add rfl rfl)
  unfold declareInterface
  cases hs : p.parts.skeleton? p.task.name with
  | some s =>
    have houter (n : String) (hn : n ∈ portNames s) : p.OuterName n := by
      rw [OuterName, hs]
      exact hn
    refine .bind (.bind (.add fun r hr => houter _ (List.mem_map_of_mem hr)) fun _ =>
      .of_internal (.add ?_ ?_)) fun _ => hrest
    · simp [portsOf, List.filterMap_map, Function.comp_def, Item.port?]
    · simp [cellsOf, List.filterMap_map, Function.comp_def, Item.cell?]
  | none =>
    have houter (stem : String) (hstem : (∃ q ∈ p.task.ports, q.name = stem) ∨
        ∃ c ∈ p.children, ∃ a ∈ c.inst.args, a.name = stem) (role : String)
        (hrole : role ∈ "" :: (readSide.suffixes ++ writeSide.suffixes)) :
        p.OuterName (stem ++ role) := by
      rw [OuterName, hs]
      exact .inr ⟨stem, hstem, role, hrole, rfl⟩
    have hbase : ∀ r ∈ basePorts, p.OuterName r.name := by
      intro r hr
      rw [OuterName, hs]
      have hnames : ∀ r ∈ basePorts, r.name ∈ handshakePorts := by decide
      exact .inl (hnames r hr)
    refine .bind (.bind (.add hbase) fun _ => .ite (fun _ => ?_) fun _ => ?_) fun _ => hrest
    · exact .forM _ fun c hc => .forM _ fun a ha =>
        ports_deriveArg (houter a.name (.inr ⟨c, hc, a, ha, rfl⟩))
    · exact .forM _ fun q hq => ports_addInterface (houter q.name (.inl ⟨q, hq, rfl⟩))

end Plan

/-- A buffer of an internal stream, with the width of its data. -/
def bufferOf (x : Fifo × Int) : Cell := streamBuffer x.1.name x.2 x.1.depth

namespace Plan

variable {p : Plan}

theorem internal_declareControl (level : Nat) : (declareControl level).Internal :=
  .bind (.signals [_, _]) fun _ => .bind (.pipeline _ _) fun _ => .pipeline _ _

theorem internal_connectExternal (f : Fifo) : (connectExternal f).Internal := by
  refine .reads_bind reads_module fun m _ => .reads_bind (reads_require _) fun data _ => ?_
  refine .reads_bind (reads_require _) fun flag _ => ?_
  exact .reads_bind (reads_require _) fun enable _ => .logics [_, _, _]

theorem extends_addStream (p : Plan) (f : Fifo) : (p.addStream f).Extends fun g _ =>
    ∃ width, g = { cells := if f.isExternal then [] else [bufferOf (f, width)] } := by
  refine Extends.reads_bind f.reads_checkSides fun _ _ =>
    Extends.reads_bind (p.reads_streamWidth f) fun width _ => ?_
  refine Extends.internal_bind (.signals _) fun _ => ?_
  by_cases hf : f.isExternal = true
  · rw [if_pos hf]
    refine (internal_connectExternal f).mono fun g _ hg => ⟨width, ?_⟩
    rw [hg, if_pos hf]
  · rw [if_neg hf]
    refine Extends.bind_internal ((Extends.add _).mono fun g _ hg _ => ⟨width, ?_⟩) fun _ => ?_
    · rw [hg, if_neg hf]
      rfl
    · exact .ite (fun _ => .logics [_]) fun _ => .pure

theorem extends_addStreams (p : Plan) (fs : List Fifo) : (fs.forM p.addStream).Extends fun g _ =>
    ∃ buffers : List (Fifo × Int), buffers.map Prod.fst = fs.filter (!·.isExternal) ∧
      g = { cells := buffers.map bufferOf } := by
  induction fs with
  | nil => exact .pure ⟨[], rfl, rfl⟩
  | cons f fs ih =>
    refine (Extends.bind (p.extends_addStream f) fun _ => ih).mono ?_
    rintro _ _ ⟨_, _, _, rfl, ⟨width, rfl⟩, buffers, hbuffers, rfl⟩
    by_cases hf : f.isExternal = true
    · exact ⟨buffers, by simp [hf, hbuffers], by simp [hf]⟩
    · exact ⟨(f, width) :: buffers, by simp [hf, hbuffers], by simp [hf]; rfl⟩

end Plan

/-- The channels of a memory argument that a child shows. -/
def shownChannels (m : Module) (a : Arg) : List String :=
  channelNames.filter fun ch => !(channelBindings m a ch).isEmpty

/-- The ports of one channel of a composite that passes it on. -/
def Plan.channelPorts (p : Plan) (arg channel : String) (width : Int) : List Port :=
  (channelSide channel).suffixes.map fun suffix =>
    ⟨channelWire arg channel suffix, channelDirection suffix, p.channelRange channel suffix width⟩

/-- The wires of one channel at the top. -/
def Plan.channelSignals (p : Plan) (arg channel : String) (width : Int) : List Signal :=
  (channelSide channel).suffixes.map fun suffix =>
    ⟨channelWire arg channel suffix, .wire, p.channelRange channel suffix width, []⟩

/-- The ports of a bus. -/
def Plan.busOf (p : Plan) (arg : String) (width : Int) : List Port :=
  busPorts.map fun (ch, q) =>
    ⟨busPort arg ch q.name, q.direction, busRange p.options.addressWidth width q.name⟩

/-- An argument of an instance with what it is driven by, what it adds to the composite, and the
ports of the child that are bound for it. -/
structure Link where
  arg : Arg
  tap : Expr
  growth : Growth
  bound : List Binding

/-- What the composite of a plan does for an argument of one of its instances. -/
inductive Plan.Connects (p : Plan) (c : Placement) : Link → Prop where
  | scalar {a : Arg} {tap : Expr} {q : Port} (hcat : a.category = .scalar)
      (hq : c.module.portOf a.port "" = .ok q) : Connects p c ⟨a, tap, {}, [⟨q.name, tap⟩]⟩
  | stream {a : Arg} {tap : Expr} {bound : List Binding} (hcat : a.category.isStream = true)
      (hbound : ∀ b ∈ bound, b.name ∈ portNames c.module) : Connects p c ⟨a, tap, {}, bound⟩
  | bus {a : Arg} {tap : Expr} {ending : String} {q : Port} (width : Int)
      (hcat : a.category = .mmap) (hq : offsetPort? c.module a.port = some (ending, q)) :
      Connects p c ⟨a, tap, { ports := p.busOf a.name width },
        busPorts.map (fun (ch, r) =>
          ⟨busPort a.port ch r.name, .ident (busPort a.name ch r.name)⟩) ++ [⟨q.name, tap⟩]⟩
  | channels {a : Arg} {tap : Expr} (width : Int) (hcat : a.category = .asyncMmap) :
      Connects p c ⟨a, tap,
        { ports := if p.isTop then [] else
            (shownChannels c.module a).flatMap fun ch => p.channelPorts a.name ch width
          signals := if p.isTop then
            (shownChannels c.module a).flatMap fun ch => p.channelSignals a.name ch width else []
          uses := [⟨a.name, width, shownChannels c.module a⟩] },
        (shownChannels c.module a).flatMap (channelBindings c.module a) ++
          (([a.port, a.port ++ "_offset"].find? fun n => (c.module.port? n).isSome).toList.map
            fun n => ⟨n, tap⟩)⟩

namespace Plan

variable {p : Plan} {c : Placement} {a : Arg}

theorem names_bindStream (c : Placement) (a : Arg) (suffixes : List String) :
    (bindStream c a suffixes).Reads fun bound => ∀ b ∈ bound, b.name ∈ portNames c.module := by
  induction suffixes with
  | nil => exact .pure (by simp)
  | cons suffix suffixes ih =>
    refine (reads_require _).bind fun q hq => ih.bind fun bound hbound => .pure fun b hb => ?_
    rcases List.mem_cons.1 hb with rfl | hb
    · exact portOf_mem hq
    · exact hbound b hb

theorem extends_declareBus (p : Plan) (arg : String) (width : Int) :
    (p.declareBus arg width).Extends fun g _ => g = { ports := p.busOf arg width } :=
  (Extends.add _).mono fun _ _ hg => by rw [hg]; rfl

theorem extends_bindBus (p : Plan) (c : Placement) {a : Arg} (hcat : a.category = .mmap)
    (tap : Expr) : (p.bindBus c a tap).Extends fun g bound => p.Connects c ⟨a, tap, g, bound⟩ := by
  refine Extends.reads_bind (p.reads_dataWidth c a) fun width _ => ?_
  refine (Extends.bind (p.extends_declareBus a.name width) (Q := fun _ g bound => g = {} ∧
    ∀ h, h = { ports := p.busOf a.name width } →
      p.Connects c ⟨a, tap, h, bound⟩) fun _ => ?_).mono ?_
  · cases hq : offsetPort? c.module a.port with
    | none => exact .throw
    | some x =>
      refine .ite (fun _ => Extends.internal_bind (.note _ _ _ _) fun _ => ?_) fun _ => ?_
      all_goals
        refine .pure ⟨rfl, ?_⟩
        rintro _ rfl
        exact .bus width hcat hq
  · rintro _ bound ⟨_, _, _, rfl, rfl, rfl, h⟩
    exact h _ (by simp)

theorem ofItems_channels (p : Plan) (arg : String) (width : Int) (used : List String) :
    Growth.ofItems (used.flatMap fun ch => p.channelItems arg ch width) =
      { ports := if p.isTop then [] else used.flatMap fun ch => p.channelPorts arg ch width
        signals := if p.isTop then
          used.flatMap fun ch => p.channelSignals arg ch width else [] } := by
  unfold channelItems channelPorts channelSignals Growth.ofItems portsOf signalsOf cellsOf
  cases p.isTop <;>
    simp [List.filterMap_flatMap, List.filterMap_map, Function.comp_def, Item.port?, Item.signal?,
      Item.cell?]

theorem extends_bindChannels (p : Plan) (c : Placement) {a : Arg} (hcat : a.category = .asyncMmap)
    (tap : Expr) :
    (p.bindChannels c a tap).Extends fun g bound => p.Connects c ⟨a, tap, g, bound⟩ := by
  have hrecord (width : Int) : (modify fun d : Draft => { d with channelUses := d.channelUses ++
      [⟨a.name, width, shownChannels c.module a⟩] } : Build Unit).Extends fun g _ =>
        g = { uses := [⟨a.name, width, shownChannels c.module a⟩] } := by
    intro d _ d' hr
    cases hr
    exact ⟨_, ⟨by simp, by simp, by simp, rfl⟩, rfl⟩
  refine Extends.reads_bind (p.reads_dataWidth c a) fun width _ => ?_
  refine (Extends.bind (Extends.add _) (Q := fun _ g bound =>
    ∀ h, h = Growth.ofItems ((shownChannels c.module a).flatMap fun ch =>
      p.channelItems a.name ch width) → p.Connects c ⟨a, tap, h ++ g, bound⟩) fun _ => ?_).mono ?_
  · refine .ite (fun _ => Extends.internal_bind .throw fun _ => ?_) fun _ => ?_
    all_goals
      refine Extends.internal_bind (.note _ _ _ _) fun _ => ?_
      refine (Extends.bind (hrecord width) fun _ => Extends.pure (P := fun g bound => g = {} ∧
        bound = (shownChannels c.module a).flatMap (channelBindings c.module a) ++
          (([a.port, a.port ++ "_offset"].find? fun n => (c.module.port? n).isSome).toList.map
            fun n => ⟨n, tap⟩)) ⟨rfl, rfl⟩).mono ?_
      rintro _ bound ⟨_, _, _, rfl, rfl, rfl, rfl⟩ _ rfl
      rw [ofItems_channels, Growth.append_nil, Growth.append_uses]
      exact .channels width hcat
  · rintro _ bound ⟨_, h, _, rfl, rfl, hconnects⟩
    exact hconnects _ rfl

theorem extends_bindArg (p : Plan) (c : Placement) (a : Arg) (tap : Expr) :
    (p.bindArg c a tap).Extends fun g bound => p.Connects c ⟨a, tap, g, bound⟩ := by
  have hstream (suffixes : List String) (hcat : a.category.isStream = true) :
      (bindStream c a suffixes).Extends fun g bound => p.Connects c ⟨a, tap, g, bound⟩ := by
    intro d bound d' hr
    obtain ⟨rfl, hbound⟩ := names_bindStream c a suffixes d bound d' hr
    exact ⟨{}, .refl _, .stream hcat hbound⟩
  unfold bindArg
  split
  · rename_i hcat
    exact Extends.reads_bind (reads_require _) fun q hq => .pure (.scalar hcat hq)
  · rename_i hcat
    exact hstream _ (by rw [hcat]; rfl)
  · rename_i hcat
    exact hstream _ (by rw [hcat]; rfl)
  · rename_i hcat
    exact p.extends_bindBus c hcat tap
  · rename_i hcat
    exact p.extends_bindChannels c hcat tap
  · exact .throw

end Plan

/-- An instance in its composite: its delayed reset and the links of its arguments. -/
structure Site where
  child : Placement
  reset : Pipeline
  links : List Link

/-- The cell of an instance. -/
def Site.cell (s : Site) : Cell where
  module := s.child.module.name
  name := s.child.name
  ports := handshakeBindings s.child s.reset ++ s.links.flatMap Link.bound

/-- What an instance adds. -/
def Site.growth (s : Site) : Growth := .sum (s.links.map Link.growth) ++ { cells := [s.cell] }

/-- The links of an instance are those of its arguments, in order. -/
structure Plan.Realizes (p : Plan) (s : Site) : Prop where
  args : s.links.map Link.arg = s.child.inst.args
  connects : ∀ l ∈ s.links, p.Connects s.child l

namespace Plan

variable {p : Plan} {c : Placement} {a : Arg}

theorem extends_bindArgs (p : Plan) (c : Placement) (taps : List (String × Pipeline))
    (as : List Arg) : (p.bindArgs c taps as).Extends fun g bound => ∃ links : List Link,
      links.map Link.arg = as ∧ (∀ l ∈ links, p.Connects c l) ∧
      g = .sum (links.map Link.growth) ∧ bound = links.flatMap Link.bound := by
  induction as with
  | nil => exact .pure ⟨[], rfl, by simp, rfl, rfl⟩
  | cons a as ih =>
    refine (Extends.bind (p.extends_bindArg c a _) fun bound => Extends.bind ih fun rest =>
      Extends.pure (P := fun g all => g = {} ∧ all = bound ++ rest) ⟨rfl, rfl⟩).mono ?_
    rintro _ _ ⟨g, _, bound, rfl, hlink, _, _, _, rfl, ⟨links, rfl, hlinks, rfl, rfl⟩, rfl, rfl⟩
    obtain ⟨tap, hlink⟩ : ∃ tap, p.Connects c ⟨a, tap, g, bound⟩ := ⟨_, hlink⟩
    refine ⟨⟨a, tap, g, bound⟩ :: links, rfl, fun l hl => ?_, by simp, rfl⟩
    rcases List.mem_cons.1 hl with rfl | hl
    · exact hlink
    · exact hlinks l hl

theorem internal_delayArg (p : Plan) (c : Placement) (a : Arg) : (p.delayArg c a).Internal := by
  unfold delayArg
  refine .ite (fun _ => .bind .throw fun _ => ?_) fun _ => ?_
  all_goals
    refine .ite (fun _ => .pure) fun _ => .reads_bind (p.reads_argSource c a) fun s _ => ?_
    exact .bind (.pipeline _ _) fun _ => .bind (.modify (fun _ => rfl) fun _ => rfl) fun _ => .pure

theorem internal_delayArgs (p : Plan) (c : Placement) (as : List Arg) :
    (p.delayArgs c as).Internal := by
  induction as with
  | nil => exact .pure
  | cons a as ih => exact .bind (p.internal_delayArg c a) fun _ => .bind ih fun _ => .pure

theorem internal_startChild (level : Nat) (c : Placement) : (startChild level c).Internal := by
  refine .ite (fun _ => .bind (.add rfl rfl) fun _ => .pure) fun _ => ?_
  rw [map_eq_pure_bind]
  refine .bind ?_ fun _ => .pure
  refine .reads_bind (reads_requireControls c _) fun _ _ => .bind (.signals _) fun _ => ?_
  refine .bind (.pipeline _ _) fun _ => .bind (.pipeline _ _) fun _ => ?_
  exact .bind (.pipeline _ _) fun _ => .bind (.logics _) fun _ => .pure

theorem extends_addChild (p : Plan) (c : Placement) : (p.addChild c).Extends fun g _ =>
    ∃ s : Site, s.child = c ∧ p.Realizes s ∧ g = s.growth := by
  rw [p.addChild_eq c]
  refine Extends.internal_bind (.pipeline _ _) fun _ => ?_
  refine Extends.internal_bind (p.internal_delayArgs c _) fun taps => ?_
  refine Extends.internal_bind (internal_startChild _ c) fun finished => ?_
  refine Extends.bind_internal ?_ fun _ => .pure
  refine (Extends.bind (p.extends_bindArgs c taps _) fun _ => Extends.add _).mono ?_
  rintro _ _ ⟨_, _, _, rfl, ⟨links, hargs, hconnects, rfl, rfl⟩, rfl⟩ _
  exact ⟨⟨c, _, links⟩, rfl, ⟨hargs, hconnects⟩, rfl⟩

theorem extends_addChildren (p : Plan) (cs : List Placement) :
    (p.addChildren cs).Extends fun g _ => ∃ sites : List Site, sites.map Site.child = cs ∧
      (∀ s ∈ sites, p.Realizes s) ∧ g = .sum (sites.map Site.growth) := by
  induction cs with
  | nil => exact .pure ⟨[], rfl, by simp, rfl⟩
  | cons c cs ih =>
    refine (Extends.bind (p.extends_addChild c) fun finished => Extends.bind_internal
      (Extends.mono ih fun _ _ h _ => h) fun _ => .pure).mono ?_
    rintro _ _ ⟨_, _, _, rfl, ⟨s, rfl, hs, rfl⟩, sites, rfl, hsites, rfl⟩
    refine ⟨s :: sites, rfl, fun s' hs' => ?_, by simp⟩
    rcases List.mem_cons.1 hs' with rfl | hs'
    · exact hs
    · exact hsites s' hs'

end Plan

/-- The adapter of a use of channels, with what drives its address. -/
def Plan.adapterOf (p : Plan) (x : ChannelUse × Expr) : Cell :=
  channelAdapter p.options.addressWidth x.1 x.2

namespace Plan

theorem extends_addAdapters (p : Plan) (us : List ChannelUse) :
    (us.forM p.addAdapter).Extends fun g _ => ∃ adapters : List (ChannelUse × Expr),
      adapters.map Prod.fst = us ∧
      g = { ports := adapters.flatMap fun x => p.busOf x.1.arg x.1.dataWidth
            cells := adapters.map p.adapterOf } := by
  induction us with
  | nil => exact .pure ⟨[], rfl, rfl⟩
  | cons u us ih =>
    have hone : (p.addAdapter u).Extends fun g _ => ∃ offset : Expr,
        g = { ports := p.busOf u.arg u.dataWidth, cells := [p.adapterOf (u, offset)] } := by
      refine (Extends.bind (p.extends_declareBus u.arg u.dataWidth) fun _ =>
        Extends.reads_bind (Q := fun g _ => ∃ offset : Expr,
          g = { cells := [p.adapterOf (u, offset)] }) reads_get fun d _ => ?_).mono ?_
      · exact (Extends.add _).mono fun g _ hg => ⟨_, hg⟩
      · rintro _ _ ⟨_, _, _, rfl, rfl, offset, rfl⟩
        refine ⟨offset, ?_⟩
        change Growth.mk (p.busOf u.arg u.dataWidth ++ []) [] _ [] = _
        rw [List.append_nil]
        rfl
    refine (Extends.bind hone fun _ => ih).mono ?_
    rintro _ _ ⟨_, _, _, rfl, ⟨offset, rfl⟩, adapters, rfl, rfl⟩
    exact ⟨(u, offset) :: adapters, rfl, rfl⟩

end Plan

/-! ### The whole module -/

theorem Plan.Connects.cells {p : Plan} {c : Placement} {l : Link} (h : p.Connects c l) :
    l.growth.cells = [] := by
  cases h <;> rfl

/-- What a memory argument that is bound to a bus adds. -/
theorem Plan.Connects.of_mmap {p : Plan} {c : Placement} {l : Link} (h : p.Connects c l)
    (hcat : l.arg.category = .mmap) : ∃ width, l.growth.ports = p.busOf l.arg.name width := by
  cases h with
  | bus width => exact ⟨width, rfl⟩
  | stream hstream =>
    rw [hcat] at hstream
    cases hstream
  | scalar hscalar => cases hcat.symm.trans hscalar
  | channels width hchannels => cases hcat.symm.trans hchannels

/-- What a memory argument with channels adds. -/
theorem Plan.Connects.of_asyncMmap {p : Plan} {c : Placement} {l : Link} (h : p.Connects c l)
    (hcat : l.arg.category = .asyncMmap) : ∃ width,
      (p.isTop = false → l.growth.ports = (shownChannels c.module l.arg).flatMap fun c =>
        p.channelPorts l.arg.name c width) ∧
      (p.isTop = true → l.growth.signals = (shownChannels c.module l.arg).flatMap fun c =>
        p.channelSignals l.arg.name c width) ∧
      l.growth.uses = [⟨l.arg.name, width, shownChannels c.module l.arg⟩] := by
  cases h with
  | channels width => exact ⟨width, by simp +contextual, by simp +contextual, rfl⟩
  | stream hstream =>
    rw [hcat] at hstream
    cases hstream
  | scalar hscalar => cases hcat.symm.trans hscalar
  | bus width hbus => cases hcat.symm.trans hbus

/-- Instances add what their arguments ask for, and one cell each. -/
theorem growth_sites {p : Plan} {sites : List Site} (h : ∀ s ∈ sites, p.Realizes s) :
    Growth.sum (sites.map Site.growth) =
      { ports := (sites.flatMap Site.links).flatMap (·.growth.ports)
        signals := (sites.flatMap Site.links).flatMap (·.growth.signals)
        cells := sites.map Site.cell
        uses := (sites.flatMap Site.links).flatMap (·.growth.uses) } := by
  induction sites with
  | nil => rfl
  | cons s sites ih =>
    have hnone : (Growth.sum (s.links.map Link.growth)).cells = [] := by
      simp only [Growth.sum, List.flatMap_map, List.flatMap_eq_nil_iff]
      exact fun l hl => ((h s (by simp)).connects l hl).cells
    rw [List.map_cons, Growth.sum_cons, ih fun s' hs' => h s' (by simp [hs']), Site.growth]
    change Growth.mk (_ ++ [] ++ _) (_ ++ [] ++ _) (_ ++ [_] ++ _) (_ ++ [] ++ _) = _
    rw [hnone]
    simp [Growth.sum, List.flatMap_map]

/-- The parts of a complete module. -/
structure Plan.Assembled (p : Plan) (m : Module) (iface : List Port) (buffers : List (Fifo × Int))
    (sites : List Site) (adapters : List (ChannelUse × Expr)) : Prop where
  outer : ∀ r ∈ iface, p.OuterName r.name
  streams : buffers.map Prod.fst = p.task.fifos.filter (!·.isExternal)
  children : sites.map Site.child = p.children
  realizes : ∀ s ∈ sites, p.Realizes s
  adapted : adapters.map Prod.fst =
    if p.isTop then (sites.flatMap Site.links).flatMap (·.growth.uses) else []
  ports : m.ports = iface ++ (sites.flatMap Site.links).flatMap (·.growth.ports) ++
    adapters.flatMap fun x => p.busOf x.1.arg x.1.dataWidth
  cells : m.cells = buffers.map bufferOf ++ sites.map Site.cell ++ adapters.map p.adapterOf
  signals : (sites.flatMap Site.links).flatMap (·.growth.signals) ⊆ m.signals

namespace Plan

theorem extends_front (p : Plan) : p.front.Extends fun g _ =>
    ∃ (iface : List Port) (buffers : List (Fifo × Int)) (sites : List Site),
      (∀ r ∈ iface, p.OuterName r.name) ∧
      buffers.map Prod.fst = p.task.fifos.filter (!·.isExternal) ∧
      sites.map Site.child = p.children ∧ (∀ s ∈ sites, p.Realizes s) ∧
      g = { ports := iface } ++ ({ cells := buffers.map bufferOf } ++
        Growth.sum (sites.map Site.growth)) := by
  refine (Extends.bind p.ports_declareInterface fun _ =>
    Extends.internal_bind (internal_declareControl _) fun _ =>
      Extends.bind (p.extends_addStreams _) fun _ => p.extends_addChildren _).mono ?_
  rintro _ _ ⟨_, _, _, rfl, ⟨iface, rfl, houter⟩, _, _, _, rfl, ⟨buffers, hbuffers, rfl⟩,
    sites, hsites, hrealizes, rfl⟩
  exact ⟨iface, buffers, sites, houter, hbuffers, hsites, hrealizes, rfl⟩

theorem assembled_of_build {p : Plan} {name : String} {d : Draft}
    (h : p.build { module := .new name } = .ok () d) :
    ∃ iface buffers sites adapters, p.Assembled d.module iface buffers sites adapters := by
  rw [p.build_eq_front_back] at h
  obtain ⟨finished, d₁, hfront, h⟩ := bind_ok.1 h
  obtain ⟨⟨⟩, d₂, hadapters, h⟩ := bind_ok.1 h
  obtain ⟨_, hg₁, iface, buffers, sites, houter, hbuffers, hsites, hrealizes, rfl⟩ :=
    p.extends_front _ _ _ hfront
  obtain ⟨_, hg₃, rfl⟩ := Internal.bind (.logics _) (fun _ => .note _ _ _ _) _ _ _ h
  rw [growth_sites hrealizes] at hg₁
  -- the adapters are those of the uses that the instances have left
  obtain ⟨adapters, hadapted, hg₂⟩ : ∃ adapters : List (ChannelUse × Expr),
      adapters.map Prod.fst =
        (if p.isTop then (sites.flatMap Site.links).flatMap (·.growth.uses) else []) ∧
      d₁.Grew { ports := adapters.flatMap fun x => p.busOf x.1.arg x.1.dataWidth
                cells := adapters.map p.adapterOf } d₂ := by
    unfold addAdapters at hadapters
    split at hadapters
    · rename_i htop
      obtain ⟨d₁', d₁'', hget, hloop⟩ := bind_ok.1 hadapters
      cases hget
      obtain ⟨_, hg₂, adapters, hadapted, rfl⟩ := p.extends_addAdapters _ _ _ _ hloop
      exact ⟨adapters, by rw [hadapted, hg₁.uses, if_pos htop]; rfl, hg₂⟩
    · rename_i htop
      cases hadapters
      exact ⟨[], by rw [if_neg htop]; rfl, .refl _⟩
  have hall := hg₁.trans (hg₂.trans hg₃)
  refine ⟨iface, buffers, sites, adapters, houter, hbuffers, hsites, hrealizes, hadapted, ?_, ?_,
    ?_⟩
  · simpa using hall.ports
  · simpa using hall.cells
  · have hsignals := hall.signals
    simp only [Growth.signals_append, List.nil_append, List.append_nil] at hsignals
    exact hsignals

/-! ### Reading an assembled module -/

namespace Assembled

variable {p : Plan} {m : Module} {iface : List Port} {buffers : List (Fifo × Int)}
  {sites : List Site} {adapters : List (ChannelUse × Expr)}

variable (h : p.Assembled m iface buffers sites adapters)

include h

/-- The cells are the buffers, those of the instances and the adapters. -/
theorem mem_cells {cell : Cell} : cell ∈ m.cells ↔ (∃ x ∈ buffers, bufferOf x = cell) ∨
    (∃ s ∈ sites, s.cell = cell) ∨ ∃ x ∈ adapters, p.adapterOf x = cell := by
  rw [h.cells, List.mem_append, List.mem_append, List.mem_map, List.mem_map, List.mem_map,
    or_assoc]

/-- Every argument of an instance has a link. -/
theorem exists_link {i : Instance} (hi : i ∈ p.children.map Placement.inst) {a : Arg}
    (ha : a ∈ i.args) : ∃ s ∈ sites, s.child.inst = i ∧ ∃ l ∈ s.links, l.arg = a := by
  rw [← h.children, List.map_map] at hi
  obtain ⟨s, hs, rfl⟩ := List.mem_map.1 hi
  have hargs : a ∈ s.links.map Link.arg := (h.realizes s hs).args ▸ ha
  obtain ⟨l, hl, rfl⟩ := List.mem_map.1 hargs
  exact ⟨s, hs, rfl, l, hl, rfl⟩

theorem arg_mem {s : Site} (hs : s ∈ sites) {l : Link} (hl : l ∈ s.links) :
    s.child.inst ∈ p.children.map Placement.inst ∧ l.arg ∈ s.child.inst.args := by
  rw [← h.children, List.map_map]
  exact ⟨List.mem_map.2 ⟨s, hs, rfl⟩, (h.realizes s hs).args ▸ List.mem_map_of_mem hl⟩

end Assembled

end Plan

end TaskLoom
