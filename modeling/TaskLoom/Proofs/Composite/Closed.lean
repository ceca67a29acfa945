import TaskLoom.Composite.Generate
import TaskLoom.Proofs.Composite.ScopedSteps
import TaskLoom.Proofs.Graph.Acceptance

/-!
# Generated modules are closed

The parts of a composite, one after the other, keep a draft in scope (`Plan.uses_of_build`).  An
accepted program has a stream for every stream argument, which is what they need.

Main statement: a generated module of an accepted program is closed exactly if no argument is misled
(`generated_closed_iff`).
-/

namespace TaskLoom

open Build

namespace Plan

section
variable {p : Plan} {late : Bool} {K : List String} {c : Placement} {a : Arg}

theorem names_handshakeBindings (c : Placement) (reset : Pipeline) :
    argNames (handshakeBindings c reset) ⊆ clockPort :: reset.last :: statusNames c := by
  intro n hn
  obtain ⟨b, hb, hn⟩ := List.mem_flatMap.1 hn
  replace hb := List.mem_of_mem_filter hb
  unfold statusNames
  cases hauto : c.inst.isAutorun <;>
    simp only [hauto, List.mem_cons, List.not_mem_nil, or_false] at hb <;>
    rcases hb with rfl | rfl | rfl | rfl | rfl | rfl <;>
    simp_all [Expr.names, handshakeSignals]

/-- The cell of an instance refers to its status signals and to what its arguments are bound to. -/
theorem scoped_addCell (hfed : p.Fed) (hc : c ∈ p.children) {taps : List (String × Pipeline)}
    (hnames : clockPort :: (resetTap p.options.registerLevel c.name).last :: statusNames c ⊆ K)
    (hwires : p.task.fifoTable.flatMap Fifo.wireNames ⊆ K) (htaps : taps.map (·.2.last) ⊆ K) :
    p.Scoped late K (p.addCell c taps) fun _ => [] := by
  refine .bind (scoped_bindArgs hfed hc hwires htaps (List.Subset.refl _)) fun bound => ?_
  refine .cell (fun n hn => ?_) fun _ => .inr ⟨c.inst, List.mem_map_of_mem hc, rfl⟩
  rw [Cell.names, List.nil_append, List.flatMap_append, List.mem_append] at hn
  rcases hn with hn | hn
  · exact List.mem_append_left _ (hnames (names_handshakeBindings _ _ hn))
  · exact List.mem_append_right _ hn

/-- What must be there before the instances are added. -/
def innerNames (p : Plan) : List String :=
  outerNames ++ (controlNames p.options.registerLevel ++ p.task.fifoTable.flatMap Fifo.wireNames)

theorem scoped_addChild (hfed : p.Fed) (hc : c ∈ p.children) (h : p.innerNames ⊆ K) :
    p.Scoped false K (p.addChild c) fun finished => finished.toList.map Pipeline.last := by
  obtain ⟨houter, hinner⟩ := List.append_subset.1 h
  obtain ⟨hcontrol, hwires⟩ := List.append_subset.1 hinner
  have hreset : resetPort ∈ K := houter (by decide)
  have hclock : clockPort ∈ K := houter (by decide)
  rw [p.addChild_eq c]
  refine .bind (Scoped.pipeline (by simpa [Expr.names] using hreset)) fun _ => ?_
  have hlast := (resetTap p.options.registerLevel c.name).last_mem
  refine .bind (scoped_delayArgs hc (List.Subset.refl _)) fun taps => ?_
  refine .bind (scoped_startChild _ ?_ ?_) fun finished => ?_
  · exact List.Subset.trans hcontrol (by simp)
  · simp [hlast]
  · refine .bind (scoped_addCell hfed hc ?_ ?_ ?_) fun _ => .pure ?_
    · exact List.cons_subset.2 ⟨by simp [hclock], List.cons_subset.2
        ⟨by simp [hlast], fun n hn => by simp [hn]⟩⟩
    · exact List.Subset.trans hwires (by simp)
    · exact fun n hn => by simp [hn]
    · exact fun n hn => by simp [hn]

theorem scoped_addChildren (hfed : p.Fed) {cs : List Placement} (hcs : cs ⊆ p.children)
    (h : p.innerNames ⊆ K) :
    p.Scoped false K (p.addChildren cs) fun finished => finished.map Pipeline.last := by
  induction cs generalizing K with
  | nil => exact .pure (List.nil_subset _)
  | cons c cs ih =>
    obtain ⟨hc, hcs⟩ := List.cons_subset.1 hcs
    refine .bind (scoped_addChild hfed hc h) fun finished => ?_
    refine .bind (ih hcs (List.subset_append_of_subset_left _ h)) fun rest => .pure ?_
    simp

/-- What the bus of an adapter is bound to. -/
def adapterBus (arg : String) : List Binding := busPorts.map fun (ch, q) =>
  ⟨"m_axi_" ++ ch ++ q.name, .ident (busPort arg ch q.name)⟩

/-- What the channels of an adapter are bound to. -/
def adapterChannels (u : ChannelUse) : List Binding := channelNames.flatMap fun ch =>
  (channelSide ch).suffixes.map fun suffix => ⟨ch ++ suffix, channelArg u ch suffix⟩

theorem names_adapterBus (arg : String) : argNames (adapterBus arg) ⊆ busNames arg := by
  intro n hn
  rw [argNames, adapterBus, List.flatMap_map] at hn
  obtain ⟨x, hx, hn⟩ := List.mem_flatMap.1 hn
  rw [List.mem_singleton.1 hn]
  exact List.mem_map_of_mem hx

theorem names_adapterChannels (u : ChannelUse) :
    argNames (adapterChannels u) ⊆ channelNamesOf u.arg u.channels := by
  intro n hn
  obtain ⟨b, hb, hn⟩ := List.mem_flatMap.1 hn
  obtain ⟨ch, -, hb⟩ := List.mem_flatMap.1 hb
  obtain ⟨suffix, hs, rfl⟩ := List.mem_map.1 hb
  unfold channelArg at hn
  -- only a channel in use is bound to a wire
  split at hn
  · rename_i hused
    rw [List.mem_singleton.1 hn]
    exact List.mem_flatMap.2 ⟨ch, List.contains_iff_mem.1 hused, List.mem_map_of_mem hs⟩
  · split at hn
    · cases hn
    · split at hn <;> cases hn

/-- What an adapter refers to. -/
theorem names_channelAdapter (addressWidth : Int) (u : ChannelUse) (offset : Expr) :
    (channelAdapter addressWidth u offset).names ⊆
      outerNames ++ (offset.names ++ (busNames u.arg ++ channelNamesOf u.arg u.channels)) := by
  have hsplit : (channelAdapter addressWidth u offset).names = [clockPort, resetWire] ++
      (offset.names ++ (argNames (adapterBus u.arg) ++ argNames (adapterChannels u))) := by
    simp [channelAdapter, adapterBus, adapterChannels, Cell.names, argNames, Expr.names]
  have houter : [clockPort, resetWire] ⊆ outerNames := by decide
  have hbus := names_adapterBus u.arg
  have hchannels := names_adapterChannels u
  intro n hn
  rw [hsplit] at hn
  grind

theorem scoped_addAdapters (h : outerNames ⊆ K) :
    p.Scoped true K p.addAdapters fun _ => [] := by
  refine .ite (fun _ => .get_bind fun d hd => ?_) fun _ => .pure (List.nil_subset _)
  refine (Scoped.forM _ (fun _ => []) fun u hu => ?_).unit
  refine .bind (scoped_declareBus _ _) fun _ => .get_bind fun d₁ hd₁ => .cell ?_ nofun
  refine List.Subset.trans (names_channelAdapter _ _ _) ?_
  refine List.append_subset.2 ⟨List.Subset.trans h (by simp), List.append_subset.2 ⟨?_, ?_⟩⟩
  · split
    · rename_i name q hfind
      intro n hn
      rw [List.mem_singleton.1 hn]
      exact List.mem_append_right _ (hd₁.taps _ (List.mem_of_find?_eq_some hfind))
    · exact List.nil_subset _
  · refine List.append_subset.2 ⟨fun n hn => by simp [hn], fun n hn => ?_⟩
    obtain ⟨ch, hch, hn⟩ := List.mem_flatMap.1 hn
    obtain ⟨suffix, hs, rfl⟩ := List.mem_map.1 hn
    simp [hd.channels u hu ch hch suffix hs]

theorem names_runningBody (level : Nat) (finished : List Pipeline) :
    Stmt.allNames (runningBody level finished) ⊆
      [stateReg, countdownReg] ++ finished.map Pipeline.last := by
  have hdrain : Stmt.allNames (enterDrain level) = [stateReg, countdownReg] := rfl
  have hall : Expr.allNames (finished.map fun q => .ident q.last) = finished.map Pipeline.last := by
    induction finished with
    | nil => rfl
    | cons q qs ih => simp [Expr.allNames, Expr.names, ih]
  unfold runningBody
  split
  · rw [hdrain]
    exact List.subset_append_left _ _
  · simp [Stmt.allNames, Stmt.names, Expr.names, hall, hdrain]

theorem names_controlLogic (level : Nat) (finished : List Pipeline) :
    ∀ l ∈ controlLogic level finished,
      l.names ⊆ outerNames ++ (controlNames level ++ finished.map Pipeline.last) := by
  have hregs : [stateReg, countdownReg] ⊆ controlNames level := List.subset_append_left _ _
  have hstart : (startPipeline level).last ∈ controlNames level := by
    simp [controlNames, Pipeline.last_mem]
  have hdone : (donePipeline level).last ∈ controlNames level := by
    simp [controlNames, Pipeline.last_mem]
  have hfirst : (donePipeline level).first ∈ controlNames level := by
    simp [controlNames, Pipeline.first_mem]
  have hports : [resetWire, idlePort, donePort, readyPort] ⊆ outerNames := by decide
  have hrunning := names_runningBody level finished
  have hcode : (if 0 < level then Expr.const 2 3 else Expr.const 2 0).names = [] := by split <;> rfl
  intro l hl n hn
  simp only [List.mem_append]
  simp only [controlLogic, List.mem_cons, List.not_mem_nil, or_false] at hl
  rcases hl with rfl | rfl | rfl | rfl
  · have hmem : n = resetWire ∨ n ∈ [stateReg, countdownReg] ∨ n = (startPipeline level).last ∨
        n ∈ Stmt.allNames (runningBody level finished) := by
      simp [controlStep, drainBody, setState, stateCode, Logic.names, Stmt.allNames, Stmt.names,
        Stmt.armNames, Expr.names, hcode] at hn
      grind
    rcases hmem with rfl | hmem | rfl | hmem
    · exact .inl (hports (.head _))
    · exact .inr (.inl (hregs hmem))
    · exact .inr (.inl hstart)
    · exact (List.mem_append.1 (hrunning hmem)).elim (fun h => .inr (.inl (hregs h)))
        fun h => .inr (.inr h)
  all_goals
    simp only [Logic.names, Expr.names, stateCode] at hn
    grind

/-- Everything up to the instances. -/
def front (p : Plan) : Build (List Pipeline) := do
  p.declareInterface
  declareControl p.options.registerLevel
  p.task.fifos.forM p.addStream
  p.addChildren p.children

/-- The adapters and the controller. -/
def back (p : Plan) (finished : List Pipeline) : Build Unit := do
  p.addAdapters
  Build.add ((controlLogic p.options.registerLevel finished).map .logic)
  Build.note p.task.name .debug "generated module"
    [("instances", .number p.children.length), ("fifos", .number p.task.fifoTable.length)]

theorem build_eq_front_back (p : Plan) : p.build = p.front >>= p.back := by
  unfold build front back
  simp only [bind_assoc]

theorem scoped_front (hfed : p.Fed) : p.Scoped false [] p.front fun finished =>
    p.innerNames ++ finished.map Pipeline.last := by
  refine .bind scoped_declareInterface fun _ => ?_
  refine .bind (scoped_declareControl _ (List.subset_append_right _ _)) fun _ => ?_
  refine .bind (Scoped.forM _ Fifo.wireNames fun f hf => ?_) fun _ => ?_
  · exact scoped_addStream (Task.mem_fifos.1 hf) (by simp)
  · refine (scoped_addChildren hfed (List.Subset.refl _) ?_).mono (List.Subset.refl _) fun _ => ?_
    · intro n hn
      simpa [innerNames, List.mem_flatMap] using hn
    · intro n hn
      simpa [innerNames, List.mem_flatMap, or_assoc] using hn

theorem scoped_back (finished : List Pipeline)
    (h : p.innerNames ++ finished.map Pipeline.last ⊆ K) :
    p.Scoped true K (p.back finished) fun _ => [] := by
  have houter : outerNames ⊆ K := fun n hn => h (by simp [innerNames, hn])
  refine .bind (scoped_addAdapters houter) fun _ => .bind (Scoped.logics _ fun l hl => ?_) fun _ =>
    .note _ _ _ _
  refine List.Subset.trans (names_controlLogic _ _ l hl) fun n hn => List.mem_append_left _ (h ?_)
  simp only [innerNames, List.mem_append] at hn ⊢
  grind

/-- A complete module refers to its symbols and to what misled arguments found. -/
theorem uses_of_build (hfed : p.Fed) {name : String} {d : Draft}
    (h : p.build { module := .new name } = .ok () d) :
    ∀ n ∈ d.module.uses, n ∈ d.module.symbols ∨ Misled p.task p.placed d.module n := by
  rw [p.build_eq_front_back] at h
  obtain ⟨finished, d₁, hfront, hback⟩ := bind_ok.1 h
  have hempty : p.InScope false { module := .new name } := by
    refine ⟨fun n hn => ?_, fun _ c hc => ?_, fun tap htap => ?_, fun u hu => ?_,
      Module.tallied_new name⟩
    · cases hn
    · cases hc
    · cases htap
    · cases hu
  obtain ⟨hd₁, -, hnames⟩ := scoped_front hfed _ _ _ hempty (List.nil_subset _) hfront
  have hlate : p.InScope true d₁ := ⟨hd₁.uses, nofun, hd₁.taps, hd₁.channels, hd₁.tallied⟩
  exact (scoped_back finished hnames _ _ _ hlate (List.Subset.refl _) hback).1.uses

end

end Plan

/-! ### Generated modules -/

/-- Every module of a generation is that of one of its tasks. -/
theorem generateTasks_mem {o : Options} {program : Program} {parts : Parts} {ts : List Task}
    {ms : List Module} (h : (generateTasks o program parts ts).result = .ok ms) {m : Module}
    (hm : m ∈ ms) : ∃ t ∈ ts, ∃ parts', (generateTask o program parts' t).2 = .ok m := by
  induction ts generalizing parts ms with
  | nil =>
    cases h
    cases hm
  | cons t ts ih =>
    unfold generateTasks at h
    rcases hg : generateTask o program parts t with ⟨log, e | m'⟩
    · rw [hg] at h
      cases h
    · rw [hg] at h
      cases hr : (generateTasks o program (parts.attach t.name m') ts).result with
      | error e =>
        simp only [hr] at h
        cases h
      | ok ms' =>
        simp only [hr] at h
        cases h
        rcases List.mem_cons.1 hm with rfl | hm
        · exact ⟨t, List.mem_cons_self, parts, by rw [hg]⟩
        · obtain ⟨t', ht', hmem⟩ := ih hr hm
          exact ⟨t', List.mem_cons_of_mem _ ht', hmem⟩

/-- In the module of a checked task, every identifier is a symbol or misled an argument. -/
theorem generateTask_uses {o : Options} {program : Program} {parts : Parts} {t : Task}
    {placed : List Instance} (hc : program.Composed t placed) {m : Module}
    (h : (generateTask o program parts t).2 = .ok m) :
    ∀ n ∈ m.uses, n ∈ m.symbols ∨ Misled t placed m n := by
  unfold generateTask at h
  split at h
  · cases h
  · rename_i p hp
    obtain ⟨insts, cs, hinsts, hcs, rfl⟩ := plan_ok hp
    rw [hc.instances] at hinsts
    cases hinsts
    have hplaced : cs.map Placement.inst = placed := inst_placements hcs
    have hfed : Plan.Fed ⟨o, program, parts, t, cs⟩ := by
      intro c hcm a ha hs
      have hbound := hc.args c.inst (hplaced ▸ List.mem_map_of_mem hcm) a ha
      have hfifo : ∃ f, t.fifo? a.name = some f := by
        cases hcat : a.category with
        | istream => exact (hbound.reads hcat).imp fun f h => h.choose_spec.1
        | ostream => exact (hbound.writes hcat).imp fun f h => h.choose_spec.1
        | _ =>
          rw [hcat] at hs
          cases hs
      obtain ⟨f, hf⟩ := hfifo
      exact ⟨f, List.mem_of_find?_eq_some hf, by simpa using List.find?_some hf⟩
    split at h
    · rename_i d hd
      cases h
      have huses := Plan.uses_of_build hfed hd
      rwa [Plan.placed, hplaced] at huses
    · cases h

/-- A generated module of an accepted program refers to its own ports, parameters and signals, with
the exception of arguments that are driven by the name of an instance or of a buffer.  So it is
closed exactly if there is no such argument, which is sure if no argument is called like one. -/
theorem generated_closed_iff {program : Program} (hcheck : Program.check (some program) = .ok ())
    (o : Options) (parts : Parts) {design : Design}
    (hdesign : (generate o program parts).result = .ok design) :
    ∀ m ∈ design.modules, ∃ t ∈ program.taskTable, ∃ placed,
      m.name = t.name ∧ program.instances t = .ok placed ∧
      (∀ n ∈ m.uses, n ∈ m.symbols ∨ Misled t placed m n) ∧
      (m.Closed ↔ ∀ n, ¬ Misled t placed m n) ∧
      ((∀ i ∈ placed, ∀ a ∈ i.args, a.category.isStream = false → ∀ n ∈ a.sources,
        ¬ CellName t placed n) → m.Closed) := by
  intro m hm
  have ha := Program.accepted_of_check hcheck
  obtain ⟨order, horder⟩ := ha.ordered
  have hfirst := Program.compositeOrder_childrenFirst horder
  unfold generate at hdesign
  rw [horder] at hdesign
  simp only at hdesign
  cases hms : (generateTasks o program parts order).result with
  | error e =>
    rw [hms] at hdesign
    cases hdesign
  | ok ms =>
    rw [hms] at hdesign
    cases hdesign
    obtain ⟨t, ht, parts', hmodule⟩ := generateTasks_mem hms hm
    have htask := Program.mem_of_task? (hfirst.known t ht)
    obtain ⟨placed, hc⟩ := ha.composed t htask (hfirst.composite t ht)
    have huses := generateTask_uses hc hmodule
    obtain ⟨_, items, -, hitems, -⟩ := generateTask_layout hmodule
    refine ⟨t, htask, placed, Module.name_of_addAll hitems, hc.instances, huses,
      ⟨fun hclosed n hmis => ?_, fun hnone n hn => ?_⟩, fun hnames n hn => ?_⟩
    · -- what drives the argument is used, but a cell is no symbol
      obtain ⟨i, -, a, -, -, -, hdrives⟩ := hmis.drives
      obtain ⟨c, hcell, hname⟩ := hmis.cell
      have hused : n ∈ m.uses :=
        List.mem_append_left _ (List.mem_flatMap.2 ⟨_, hdrives, .tail _ (.head _)⟩)
      exact Module.not_symbol_of_cell hitems hcell (hname ▸ hclosed n hused)
    · exact (huses n hn).resolve_right (hnone n)
    · refine (huses n hn).resolve_right fun hmis => ?_
      obtain ⟨i, hi, a, ha, hs, hsource, -⟩ := hmis.drives
      exact hnames i hi a ha hs n hsource hmis.named

def relayModule : Module where
  name := "A"
  ports := basePorts ++ streamPorts "in" readSide true 32 ++ streamPorts "out" writeSide false 32 ++
    [⟨"n", .input, BitRange.bits 32⟩]

/-- A composite in which one instance writes to the stream `q`, another one reads from it, and a
third one has a scalar argument. -/
def bufferedProgram (scalar : String) : Program where
  top := "Top"
  taskTable := [{ name := "A", level := .leaf },
    { name := "Top", level := .composite
      childTable := [⟨"A", [⟨0, [⟨"q", .ostream, "out"⟩]⟩, ⟨0, [⟨"q", .istream, "in"⟩]⟩,
        ⟨0, [⟨scalar, .scalar, "n"⟩]⟩]⟩]
      fifoTable := [⟨"q", 2, some ⟨"A", 0⟩, some ⟨"A", 1⟩⟩] }]

/-- The skeleton of the composite has a port `n`, and none that is called `q`. -/
def bufferedParts : Parts where
  modules := [("A", relayModule)]
  skeletons := [("Top", { name := "Top", ports := basePorts ++ [⟨"n", .input, BitRange.bits 32⟩] })]

/-- With a scalar `n`, everything is closed. -/
theorem generated_closed_buffered : ∃ design,
    (generate {} (bufferedProgram "n") bufferedParts).result = .ok design ∧
      ∀ m ∈ design.modules, m.Closed := by
  have hok : (generate {} (bufferedProgram "n") bufferedParts).result.isOk = true := by
    decide +kernel
  cases hd : (generate {} (bufferedProgram "n") bufferedParts).result with
  | error e =>
    rw [hd] at hok
    cases hok
  | ok design =>
    refine ⟨design, rfl, fun m hm => ?_⟩
    obtain ⟨t, ht, placed, -, hplaced, -, -, hclosed⟩ :=
      generated_closed_iff (by with_unfolding_all rfl) {} bufferedParts hd m hm
    refine hclosed ?_
    have htasks : t = { name := "A", level := .leaf } ∨ t = (bufferedProgram "n").taskTable[1] := by
      simpa [bufferedProgram] using ht
    rcases htasks with rfl | rfl
    · cases hplaced
      simp
    · cases hplaced
      decide

/-- With a scalar `q`, the program is accepted all the same, and the argument is driven by the name
of the buffer. -/
theorem buffer_drives_argument : Program.check (some (bufferedProgram "q")) = .ok () ∧
    ∃ design, (generate {} (bufferedProgram "q") bufferedParts).result = .ok design ∧
      ∃ m ∈ design.modules, "q" ∈ m.uses ∧ "q" ∉ m.symbols := by
  refine ⟨by with_unfolding_all rfl, ?_⟩
  have hok : (match (generate {} (bufferedProgram "q") bufferedParts).result with
      | .ok design => design.modules.any fun m => m.uses.contains "q" && !m.symbols.contains "q"
      | .error _ => false) = true := by
    decide +kernel
  cases hd : (generate {} (bufferedProgram "q") bufferedParts).result with
  | error e =>
    rw [hd] at hok
    cases hok
  | ok design =>
    rw [hd] at hok
    obtain ⟨m, hm, hq⟩ := List.any_eq_true.1 hok
    exact ⟨design, rfl, m, hm, by simpa using hq⟩

end TaskLoom
