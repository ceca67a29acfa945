import TaskLoom.Proofs.Composite.Accepted
import TaskLoom.Proofs.Composite.Assembly
import TaskLoom.Proofs.Composite.Generated
import TaskLoom.Proofs.Composite.Lookup

/-!
# The ports that instances bind

An instance binds the ports of its child by looking them up, with two exceptions: the ports of a
memory bus are bound without a look at the child, and the cells of buffers and adapters have fixed
ports.  `Cell.Fits c child`: the module `child` declares whatever the cell `c` binds.

Main statement: in a generated module every cell fits the module at hand for it exactly if the child
of every memory argument declares the whole bus, and no task with a misfitting module has the name
of a buffer or an adapter in use (`bindings_declared_iff`).
-/

namespace TaskLoom

open Build

/-- The module declares all ports that the cell binds. -/
def Cell.Fits (cell : Cell) (child : Module) : Prop := ∀ b ∈ cell.ports, b.name ∈ portNames child

instance (cell : Cell) (child : Module) : Decidable (cell.Fits child) :=
  inferInstanceAs (Decidable (∀ b ∈ cell.ports, _))

/-- The module declares the whole bus of an argument. -/
def Module.HasBus (m : Module) (arg : String) : Prop :=
  ∀ x ∈ busPorts, busPort arg x.1 x.2.name ∈ portNames m

instance (m : Module) (arg : String) : Decidable (m.HasBus arg) :=
  inferInstanceAs (Decidable (∀ x ∈ busPorts, _))

/-- The ports that the cell of a buffer binds. -/
def bufferPorts : List String :=
  ["clk", "reset", "if_dout", "if_empty_n", "if_read", "if_read_ce", "if_din", "if_full_n",
    "if_write", "if_write_ce"]

/-- The ports that the cell of an adapter binds. -/
def adapterPorts : List String :=
  ["clk", "rst", "offset"] ++ busPorts.map (fun (ch, q) => "m_axi_" ++ ch ++ q.name) ++
    channelNames.flatMap fun ch => (channelSide ch).suffixes.map (ch ++ ·)

theorem fits_bufferOf (x : Fifo × Int) (child : Module) :
    (bufferOf x).Fits child ↔ bufferPorts ⊆ portNames child := by
  have hnames : (bufferOf x).ports.map Binding.name = bufferPorts := rfl
  rw [← hnames, Cell.Fits, List.subset_def]
  simp

theorem Module.findPort?_mem {m : Module} {head ending : String} {q : Port}
    (h : m.findPort? head ending = some q) : q.name ∈ portNames m :=
  List.mem_map_of_mem (List.mem_of_find?_eq_some h)

theorem offsetPort?_mem {m : Module} {port ending : String} {q : Port}
    (h : offsetPort? m port = some (ending, q)) : q.name ∈ portNames m := by
  obtain ⟨suffix, -, hsuffix⟩ := List.exists_of_findSome?_eq_some h
  rw [Option.map_eq_some_iff] at hsuffix
  obtain ⟨r, hr, he⟩ := hsuffix
  cases he
  exact Module.findPort?_mem hr

theorem channelBindings_mem {m : Module} {a : Arg} {channel : String} :
    ∀ b ∈ channelBindings m a channel, b.name ∈ portNames m := by
  intro b hb
  obtain ⟨suffix, -, hsuffix⟩ := List.mem_filterMap.1 hb
  rw [Option.map_eq_some_iff] at hsuffix
  obtain ⟨q, hq, rfl⟩ := hsuffix
  exact Module.findPort?_mem hq

namespace Plan

variable {p : Plan} {c : Placement} {l : Link} {s : Site}

theorem fits_adapterOf (p : Plan) (x : ChannelUse × Expr) (child : Module) :
    (p.adapterOf x).Fits child ↔ adapterPorts ⊆ portNames child := by
  have hnames : (p.adapterOf x).ports.map Binding.name = adapterPorts := rfl
  rw [← hnames, Cell.Fits, List.subset_def]
  simp

/-- What an argument binds is declared, up to the ports of a bus. -/
theorem Connects.bound_iff (h : p.Connects c l) : (∀ b ∈ l.bound, b.name ∈ portNames c.module) ↔
    (l.arg.category = .mmap → c.module.HasBus l.arg.port) := by
  cases h with
  | scalar hcat hq => simp [hcat, portOf_mem hq]
  | stream hcat hbound =>
    refine ⟨fun _ he => ?_, fun _ => hbound⟩
    rw [he] at hcat
    cases hcat
  | bus width hcat hq =>
    simp only [hcat, true_implies, List.mem_append, List.mem_map, List.mem_singleton, Module.HasBus]
    constructor
    · exact fun h x hx => h _ (.inl ⟨x, hx, rfl⟩)
    · rintro h b (⟨x, hx, rfl⟩ | rfl)
      · exact h x hx
      · exact offsetPort?_mem hq
  | channels width hcat =>
    refine ⟨fun _ he => ?_, fun _ b hb => ?_⟩
    · rw [hcat] at he
      cases he
    · rcases List.mem_append.1 hb with hb | hb
      · obtain ⟨channel, -, hb⟩ := List.mem_flatMap.1 hb
        exact channelBindings_mem b hb
      · obtain ⟨n, hn, rfl⟩ := List.mem_map.1 hb
        rw [Option.mem_toList] at hn
        have hfound := List.find?_some hn
        rw [Option.isSome_iff_ne_none, ne_eq, Module.port?_eq_none_iff, not_not] at hfound
        exact hfound

theorem handshakeBindings_mem (c : Placement) (reset : Pipeline) :
    ∀ b ∈ handshakeBindings c reset, b.name ∈ portNames c.module := by
  intro b hb
  have hsome := (List.mem_filter.1 hb).2
  rw [Option.isSome_iff_ne_none, ne_eq, Module.port?_eq_none_iff, not_not] at hsome
  exact hsome

/-- The cell of an instance fits its child exactly if the child has a bus for each memory argument
that is bound to one. -/
theorem Realizes.fits_iff (h : p.Realizes s) : s.cell.Fits s.child.module ↔
    ∀ a ∈ s.child.inst.args, a.category = .mmap → s.child.module.HasBus a.port := by
  have hlinks : s.cell.Fits s.child.module ↔
      ∀ l ∈ s.links, ∀ b ∈ l.bound, b.name ∈ portNames s.child.module := by
    simp only [Cell.Fits, Site.cell, List.mem_append, List.mem_flatMap]
    constructor
    · exact fun h l hl b hb => h b (.inr ⟨l, hl, hb⟩)
    · rintro h b (hb | ⟨l, hl, hb⟩)
      · exact handshakeBindings_mem _ _ b hb
      · exact h l hl b hb
  rw [hlinks, ← h.args]
  simp only [List.mem_map, forall_exists_index, and_imp, forall_apply_eq_imp_iff₂]
  exact forall₂_congr fun l hl => (h.connects l hl).bound_iff

/-- A use of channels is left by a memory argument with channels, and by no other one. -/
theorem Connects.uses_ne_nil (h : p.Connects c l) :
    l.growth.uses ≠ [] ↔ l.arg.category = .asyncMmap := by
  cases h with
  | stream hcat =>
    refine ⟨fun h => absurd rfl h, fun he => ?_⟩
    rw [he] at hcat
    cases hcat
  | _ => simp [*]

end Plan

/-! ### Modules of loaded programs -/

/-- The modules at hand are called like their tasks. -/
def Parts.Named (parts : Parts) : Prop := ∀ n m, parts.module? n = some m → m.name = n

theorem load_named {tree : FileTree} {file dir : String} {log : List LogEntry} {b : Bundle}
    (h : load tree file dir = (log, .ok b)) : b.parts.Named :=
  fun n m hm => ((load_loaded h).attached n m hm).1

section
variable {o : Options} {program : Program} {parts : Parts} {design : Design}

/-- A generation keeps the modules named: a new one is called like its task. -/
theorem Parts.Named.generate (h : parts.Named)
    (hgen : (generate o program parts).result = .ok design) :
    (TaskLoom.generate o program parts).parts.Named := by
  intro n m hm
  obtain ⟨order, horder, hmade, -⟩ := made_of_generate hgen
  by_cases hn : n ∈ order.map Task.name
  · obtain ⟨t, ht, rfl⟩ := List.mem_map.1 hn
    obtain ⟨m', -, q, -, -, rfl, hq⟩ := hmade t ht
    cases hm.symm.trans hq.kept
    exact hq.name
  · refine h n m ?_
    have hframe := (generateTasks_frame (o := o) (p := program) parts order).2 n hn
    unfold TaskLoom.generate at hm
    rw [horder] at hm
    exact hframe ▸ hm

namespace Plan.Assembled

variable {p : Plan} {m : Module} {iface : List Port} {buffers : List (Fifo × Int)}
  {sites : List Site} {adapters : List (ChannelUse × Expr)}

variable (h : p.Assembled m iface buffers sites adapters)

include h

theorem fits_sites_iff {final : Parts} (hnamed : final.Named)
    (hchildren : ∀ c ∈ p.children, final.module? c.inst.task.name = some c.module) :
    (∀ s ∈ sites, ∀ child, final.module? s.cell.module = some child → s.cell.Fits child) ↔
      ∀ i ∈ p.children.map Placement.inst, ∀ child, final.module? i.task.name = some child →
        ∀ a ∈ i.args, a.category = .mmap → child.HasBus a.port := by
  rw [← h.children] at hchildren ⊢
  simp only [List.map_map, List.mem_map, forall_exists_index, and_imp, forall_apply_eq_imp_iff₂,
    Function.comp_apply] at hchildren ⊢
  refine forall₂_congr fun s hs => ?_
  have hmodule := hchildren s hs
  have hcell : final.module? s.cell.module = some s.child.module := by
    rw [Site.cell, hnamed _ _ hmodule, hmodule]
  simp only [hcell, hmodule, Option.some.injEq, forall_eq']
  exact (h.realizes s hs).fits_iff

theorem fits_buffers_iff (final : Parts) :
    (∀ x ∈ buffers, ∀ child, final.module? (bufferOf x).module = some child →
      (bufferOf x).Fits child) ↔
    ((∃ f ∈ p.task.fifoTable, f.isExternal = false) →
      ∀ child, final.module? fifoPrimitive = some child → bufferPorts ⊆ portNames child) := by
  have hsome : (∃ f ∈ p.task.fifoTable, f.isExternal = false) ↔ ∃ x, x ∈ buffers := by
    have hmem (f : Fifo) : f ∈ buffers.map Prod.fst ↔ f ∈ p.task.fifoTable ∧ f.isExternal = false := by
      rw [h.streams, List.mem_filter, Bool.not_eq_true', Task.mem_fifos]
    constructor
    · rintro ⟨f, hf⟩
      obtain ⟨x, hx, -⟩ := List.mem_map.1 ((hmem f).2 hf)
      exact ⟨x, hx⟩
    · rintro ⟨x, hx⟩
      exact ⟨x.1, (hmem x.1).1 (List.mem_map_of_mem hx)⟩
  rw [hsome]
  simp only [fits_bufferOf, forall_exists_index]
  exact Iff.rfl

theorem fits_adapters_iff (final : Parts) :
    (∀ x ∈ adapters, ∀ child, final.module? (p.adapterOf x).module = some child →
      (p.adapterOf x).Fits child) ↔
    (p.isTop = true → (∃ i ∈ p.children.map Placement.inst, ∃ a ∈ i.args,
        a.category = .asyncMmap) →
      ∀ child, final.module? channelPrimitive = some child → adapterPorts ⊆ portNames child) := by
  have hsome : (p.isTop = true ∧ ∃ i ∈ p.children.map Placement.inst, ∃ a ∈ i.args,
      a.category = .asyncMmap) ↔ ∃ x, x ∈ adapters := by
    have hadapters : (∃ x, x ∈ adapters) ↔ ∃ u, u ∈ adapters.map Prod.fst := by
      simp only [List.mem_map]
      exact ⟨fun ⟨x, hx⟩ => ⟨_, x, hx, rfl⟩, fun ⟨_, x, hx, _⟩ => ⟨x, hx⟩⟩
    rw [hadapters, h.adapted]
    by_cases htop : p.isTop = true
    · simp only [htop, if_true, true_and]
      constructor
      · rintro ⟨i, hi, a, ha, hcat⟩
        obtain ⟨s, hs, -, l, hl, rfl⟩ := h.exists_link hi ha
        have huses := ((h.realizes s hs).connects l hl).uses_ne_nil.2 hcat
        obtain ⟨u, hu⟩ := List.exists_mem_of_ne_nil _ huses
        exact ⟨u, List.mem_flatMap.2 ⟨l, List.mem_flatMap.2 ⟨s, hs, hl⟩, hu⟩⟩
      · rintro ⟨u, hu⟩
        obtain ⟨l, hl, hu⟩ := List.mem_flatMap.1 hu
        obtain ⟨s, hs, hl⟩ := List.mem_flatMap.1 hl
        obtain ⟨hi, ha⟩ := h.arg_mem hs hl
        refine ⟨_, hi, _, ha, ((h.realizes s hs).connects l hl).uses_ne_nil.1 ?_⟩
        exact List.ne_nil_of_mem hu
    · simp [htop]
  rw [← and_imp, hsome]
  simp only [fits_adapterOf, forall_exists_index]
  exact Iff.rfl

/-- The bus of a memory argument is declared by the composite. -/
theorem hasBus {i : Instance} (hi : i ∈ p.children.map Placement.inst) {a : Arg} (ha : a ∈ i.args)
    (hcat : a.category = .mmap) : m.HasBus a.name := by
  obtain ⟨s, hs, -, l, hl, rfl⟩ := h.exists_link hi ha
  have hports : (l.growth.ports.map Port.name) ⊆ portNames m := by
    rw [portNames, h.ports]
    refine List.map_subset _ fun r hr => ?_
    refine List.mem_append_left _ (List.mem_append_right _ (List.mem_flatMap.2 ⟨l, ?_, hr⟩))
    exact List.mem_flatMap.2 ⟨s, hs, hl⟩
  obtain ⟨width, hbus⟩ := ((h.realizes s hs).connects l hl).of_mmap hcat
  intro x hx
  refine hports ?_
  rw [hbus, busOf, List.map_map]
  exact List.mem_map.2 ⟨x, hx, rfl⟩

end Plan.Assembled

/-- In a module generated for a loaded program every cell binds declared ports only, exactly if the
child of every memory argument declares the whole bus, and a task that is called like a buffer or an
adapter in use has the ports of one.  The module itself declares the buses of the memories that it
passes on. -/
theorem bindings_declared_iff {tree : FileTree} {file dir : String} {log : List LogEntry}
    {b : Bundle} (hload : load tree file dir = (log, .ok b))
    (hgen : (generate o b.program b.parts).result = .ok design) :
    ∀ m ∈ design.modules, ∃ t ∈ b.program.taskTable, ∃ placed,
      m.name = t.name ∧ b.program.instances t = .ok placed ∧
      ((∀ cell ∈ m.cells, ∀ child,
          (generate o b.program b.parts).parts.module? cell.module = some child →
            cell.Fits child) ↔
        (∀ i ∈ placed, ∀ child,
          (generate o b.program b.parts).parts.module? i.task.name = some child →
            ∀ a ∈ i.args, a.category = .mmap → child.HasBus a.port) ∧
        ((∃ f ∈ t.fifoTable, f.isExternal = false) → ∀ child,
          (generate o b.program b.parts).parts.module? fifoPrimitive = some child →
            bufferPorts ⊆ portNames child) ∧
        (t.name = b.program.top → (∃ i ∈ placed, ∃ a ∈ i.args, a.category = .asyncMmap) →
          ∀ child, (generate o b.program b.parts).parts.module? channelPrimitive = some child →
            adapterPorts ⊆ portNames child)) ∧
      ∀ i ∈ placed, ∀ a ∈ i.args, a.category = .mmap → m.HasBus a.name := by
  intro m hm
  have hnamed := (load_named hload).generate hgen
  obtain ⟨order, horder, -, hmade⟩ := made_of_generate hgen
  obtain ⟨p, rfl, hprogram, ht, hp⟩ := hmade m hm
  obtain ⟨d, hd, rfl⟩ := hp.built
  obtain ⟨iface, buffers, sites, adapters, h⟩ := Plan.assembled_of_build hd
  have hknown := (Program.compositeOrder_childrenFirst horder).known _ ht
  refine ⟨p.task, Program.mem_of_task? hknown, _, hp.name, hprogram ▸ hp.placed, ?_,
    fun i hi a ha => h.hasBus hi ha⟩
  have htop : p.isTop = true ↔ p.task.name = b.program.top := by
    rw [Plan.isTop, beq_iff_eq, hprogram]
  rw [← h.fits_sites_iff hnamed hp.children, ← h.fits_buffers_iff, ← htop, ← h.fits_adapters_iff]
  simp only [h.mem_cells, or_imp, forall_and, forall_exists_index, and_imp,
    forall_apply_eq_imp_iff₂]
  tauto

end

/-- A top task whose child `A` has a memory `m`. -/
def memoryText : String :=
  "\x7b\"tasks\":\x7b\"A\":\x7b\x7d,\"Top\":\x7b\"level\":1," ++
  "\"tasks\":\x7b\"A\":\x7b\"args\":\x7b\"x\":\x7b\"cat\":\"mmap\",\"port\":\"m\"" ++
  "\x7d\x7d\x7d\x7d\x7d\x7d,\"top\":\"Top\"\x7d"

def memoryProgram : Program where
  top := "Top"
  taskTable := [{ name := "A", level := .leaf },
    { name := "Top", level := .composite, childTable := [⟨"A", [⟨0, [⟨"x", .mmap, "m"⟩]⟩]⟩] }]

/-- The ports of `A` apart from those of a bus. -/
def memoryInputs : List String := [clockPort, resetPort, startPort, "m_offset"]

def memoryOutputs : List String := [donePort, idlePort, readyPort]

/-- The source of `A` with some ports of a bus. -/
def memorySource (bus : List (String × BusPort)) : String :=
  "module A(input " ++ String.intercalate "," memoryInputs ++ ",output " ++
    String.intercalate "," (memoryOutputs ++ bus.map fun x => busPort "m" x.1 x.2.name) ++
    ");\nendmodule\n"

/-- The ports of a bus that is only written. -/
def writePorts : List (String × BusPort) := busPorts.filter fun x => ["AW", "W", "B"].contains x.1

theorem parse_memoryText : Description.parse .double memoryText = .ok memoryProgram :=
  Description.parse_of_ascii (by decide +kernel) (by decide +kernel)

/-- Generates the program with a source that has one module `A`, and tests the outcome. -/
def memoryTrial (bus : List (String × BusPort)) (good : Module → Parts → Design → Bool) : Bool :=
  match leafModules? memoryProgram (memorySource bus) with
  | some [m] =>
    let g := generate {} memoryProgram (attachModules memoryProgram [m])
    m.name == "A" && match g.result with
      | .ok d => good m g.parts d
      | .error _ => false
  | _ => false

theorem load_memory (bus : List (String × BusPort)) (good : Module → Parts → Design → Bool)
    (h : memoryTrial bus good = true) :
    ∃ log b design m, load (leafFiles memoryText (memorySource bus)) "program.json" "rtl" =
        (log, .ok b) ∧ b.program = memoryProgram ∧ b.parts.module? "A" = some m ∧
      (generate {} b.program b.parts).result = .ok design ∧
      good m (generate {} b.program b.parts).parts design = true := by
  unfold memoryTrial at h
  split at h
  · rename_i m hms
    rw [Bool.and_eq_true, beq_iff_eq] at h
    obtain ⟨hname, h⟩ := h
    split at h
    · rename_i design hgen
      have hstock : (attachModules memoryProgram [m]).module? "A" = some m := by
        simp [attachModules, Program.tasks, Text.sortedBy, Text.insertBy, memoryProgram,
          Parts.module?, Task.isComposite, hname]
      obtain ⟨log, hload⟩ := load_leaf parse_memoryText hms
      exact ⟨log, _, design, m, hload, rfl, hstock, hgen, h⟩
    · cases h
  · cases h

theorem bindings_declared_whole : ∃ log b design,
    load (leafFiles memoryText (memorySource busPorts)) "program.json" "rtl" = (log, .ok b) ∧
      (generate {} b.program b.parts).result = .ok design ∧
      ∀ m ∈ design.modules, ∀ cell ∈ m.cells, ∀ child,
        (generate {} b.program b.parts).parts.module? cell.module = some child →
          cell.Fits child := by
  obtain ⟨log, b, design, a, hload, hprogram, ha, hgen, hports⟩ :=
    load_memory busPorts (fun m _ _ => portNames m == memoryInputs ++ memoryOutputs ++
      busPorts.map fun x => busPort "m" x.1 x.2.name) (by decide +kernel)
  have hbus : a.HasBus "m" := by
    intro x hx
    rw [beq_iff_eq.1 hports]
    exact List.mem_append_right _ (List.mem_map_of_mem hx)
  refine ⟨log, b, design, hload, hgen, fun m hm => ?_⟩
  obtain ⟨t, ht, placed, -, hplaced, hfits, -⟩ := bindings_declared_iff hload hgen m hm
  have hleaf : (generate {} b.program b.parts).parts.module? "A" = some a := by
    rw [(generate_frame b.parts).2, ha]
    intro t ht
    rw [hprogram] at ht
    cases ht
    rfl
  have hplaced : placed = [] ∧ t.fifoTable = [] ∨ t.fifoTable = [] ∧
      placed = [⟨{ name := "A", level := .leaf }, 0, 0, [⟨"x", .mmap, "m"⟩]⟩] := by
    rw [hprogram] at ht hplaced
    simp only [memoryProgram, List.mem_cons, List.not_mem_nil, or_false] at ht
    rcases ht with rfl | rfl <;> cases hplaced
    · exact .inl ⟨rfl, rfl⟩
    · exact .inr ⟨rfl, rfl⟩
  refine hfits.2 ?_
  rcases hplaced with ⟨rfl, hfifos⟩ | ⟨hfifos, rfl⟩
  · simp [hfifos]
  · simpa [hfifos, hleaf] using hbus

/-- A source with the ports of a bus that is only written is bound to the whole bus. -/
theorem bus_not_declared : ∃ log b design,
    load (leafFiles memoryText (memorySource writePorts)) "program.json" "rtl" = (log, .ok b) ∧
      Program.check (some b.program) = .ok () ∧
      (generate {} b.program b.parts).result = .ok design ∧
      ∃ m ∈ design.modules, ∃ cell ∈ m.cells, cell.module ∈ b.program.taskNames ∧
        ∃ child, (generate {} b.program b.parts).parts.module? cell.module = some child ∧
          ¬ cell.Fits child := by
  obtain ⟨log, b, design, -, hload, hprogram, -, hgen, hmisfit⟩ :=
    load_memory writePorts (fun _ final d => d.modules.any fun m =>
      m.cells.any fun cell => memoryProgram.taskNames.contains cell.module &&
        (final.module? cell.module).any fun child => !decide (cell.Fits child)) (by decide +kernel)
  refine ⟨log, b, design, hload, ?_, hgen, ?_⟩
  · rw [hprogram]
    with_unfolding_all rfl
  · simpa [hprogram, Option.any_eq_true] using hmisfit

end TaskLoom
