import TaskLoom.Proofs.Composite.ExternalStreams
import TaskLoom.Proofs.Composite.Generated
import TaskLoom.Proofs.Composite.Monitors
import TaskLoom.Proofs.Simulation.FixedPoint

/-!
# Generated logic settles

If no two external streams are connected to one port, the module of a composite task is orderly from
the end of its streams on (`orderly_addStreams`), through all of its instances
(`keeps_addChildren`), to the status ports that are written last (`orderly_build`).  Its clocked
blocks write registers only, and its assignments drive none.  So its simulations settle from any
values, at the start and in every call (`generated_settles`).
-/

namespace TaskLoom

open Build

/-- No two external streams of a task are connected to one port of a module. -/
def Task.ConnectsApart (t : Task) (m : Module) : Prop :=
  (t.fifoTable.filter (·.isExternal)).Pairwise fun f g => (f.outerPorts m).Disjoint (g.outerPorts m)

instance (t : Task) (m : Module) : Decidable (t.ConnectsApart m) :=
  inferInstanceAs (Decidable ((t.fifoTable.filter (·.isExternal)).Pairwise fun f g =>
    ∀ x ∈ f.outerPorts m, x ∉ g.outerPorts m))

namespace Plan

variable {p : Plan} {name : String} {d : Draft}

theorem build_eq_base_finish (p : Plan) : p.build = (do
    (do p.declareInterface; declareControl p.options.registerLevel : Build Unit)
    p.task.fifos.forM p.addStream
    p.finish) := by
  unfold build finish
  simp only [bind_assoc]

/-- What follows the streams adds the status ports last. -/
theorem assigns_finish {d' : Draft} (h : Orderly p.options.registerLevel d.module)
    (hr : p.finish d = .ok () d') :
    ∃ m, Orderly p.options.registerLevel m ∧
      Circuit.assignsOf d'.module.logics = Circuit.assignsOf m.logics ++
        statusAssigns p.options.registerLevel ∧
      ∀ n, m.carries n = true → d'.module.carries n = true := by
  unfold finish at hr
  obtain ⟨finished, d₁, hchildren, hr⟩ := bind_ok.1 hr
  obtain ⟨⟨⟩, d₂, hadapters, hr⟩ := bind_ok.1 hr
  obtain ⟨⟨⟩, d₃, hlogic, hnote⟩ := bind_ok.1 hr
  have h₁ := keeps_addChildren p _ _ _ _ hchildren h
  have h₂ := keeps_declares p.declares_addAdapters _ _ _ hadapters h₁
  obtain ⟨m, hm, rfl⟩ := add_ok hlogic
  cases hnote
  refine ⟨d₂.module, h₂, ?_, fun n hn => Module.carries_addAll hm hn⟩
  show Circuit.assignsOf m.logics = _
  rw [Module.assignsOf_addAll hm, assignsIn_logics]
  rfl

/-- A port that is found before the streams are added is found in the complete module. -/
theorem portOf_complete {d₁ : Draft}
    (hr : (do p.task.fifos.forM p.addStream; p.finish : Build Unit) d₁ = .ok () d) {arg role : String}
    (hrole : role ∈ streamRoles) {q : Port} (h : d₁.module.portOf arg role = .ok q) :
    d.module.portOf arg role = .ok q := by
  have hkeeps : (do p.task.fifos.forM p.addStream; p.finish : Build Unit).Each
      Item.KeepsInterface := .bind (.forM _ fun f _ => p.each_addStream f) fun _ => p.each_finish
  obtain ⟨items, hitems, hall⟩ := hkeeps _ _ _ hr
  have hports : d.module.ports = d₁.module.ports ++ portsOf items := by
    rw [Module.addAll_eq hitems, Module.ports_pushAll]
  exact portOf_grown hports (fun q hq => hall _ (mem_portsOf.1 hq)) hrole h

/-- The assignments of a complete module. -/
theorem orderly_build (h : p.build { module := .new name } = .ok () d)
    (hports : p.task.ConnectsApart d.module) :
    ((Circuit.assignsOf d.module.logics).map Prod.fst).Nodup ∧
    (∀ a ∈ Circuit.assignsOf d.module.logics, d.module.carries a.1 = true) ∧
    NoCycle (Circuit.assignsOf d.module.logics) := by
  rw [p.build_eq_base_finish] at h
  obtain ⟨⟨⟩, d₁, hbase, hrest⟩ := bind_ok.1 h
  obtain ⟨⟨⟩, d₂, hstreams, hfinish⟩ := bind_ok.1 hrest
  -- being apart is symmetric, so the order of the streams does not matter
  have hapart : (p.task.fifos.filter (·.isExternal)).Pairwise fun f g =>
      (f.outerPorts d.module).Disjoint (g.outerPorts d.module) :=
    (((Text.perm_sortedBy Fifo.name p.task.fifoTable).filter _).pairwise_iff fun {f g} h => h.symm).2
      hports
  have horderly := orderly_addStreams (onBase_of_ok hbase).sparing
    (fun arg role hrole q hq => portOf_complete hrest hrole hq) (fun _ _ _ _ _ => not_false)
    hapart hstreams
  obtain ⟨m, hm, hassigns, hcarries⟩ := assigns_finish horderly hfinish
  have hperm : (Circuit.assignsOf d.module.logics).Perm (m.drivers p.options.registerLevel) :=
    hassigns ▸ List.perm_append_comm
  refine ⟨(hperm.map Prod.fst).nodup_iff.2 hm.distinct, fun a ha => ?_, hm.acyclic.of_perm hperm⟩
  exact hcarries _ (hm.targets a (hperm.mem_iff.1 ha))

end Plan

/-- A module that drives different declared names without a cycle starts, and whatever was called
before, a step succeeds, and so does the setting of a declared name that it does not drive. -/
theorem Module.runs_of_acyclic {m : Module}
    (hdistinct : ((Circuit.assignsOf m.logics).map Prod.fst).Nodup)
    (hdeclared : ∀ a ∈ Circuit.assignsOf m.logics, m.carries a.1 = true)
    (hacyclic : NoCycle (Circuit.assignsOf m.logics)) :
    ∃ s, Simulator.start m = .ok (s, none) ∧ ∀ cs, (s.after cs).step.2 = none ∧
      ∀ name v, m.carries name = true → (∀ a ∈ Circuit.assignsOf m.logics, a.1 ≠ name) →
        ((s.after cs).set name v).2 = none := by
  obtain ⟨rank, hk⟩ := exists_ranked hdistinct hacyclic
  obtain ⟨s, hs⟩ := Simulator.settle_ranked (s := Simulator.initial
    ⟨Circuit.widthsOf m, Circuit.assignsOf m.logics, Circuit.blocksOf m.logics⟩) hk
  have hstart : Simulator.start m = .ok (s, none) := by
    rw [Simulator.start, Circuit.ofModule_ok hdeclared, ← hs]
    rfl
  refine ⟨s, hstart, fun cs => ?_⟩
  have hc : (s.after cs).circuit =
      ⟨Circuit.widthsOf m, Circuit.assignsOf m.logics, Circuit.blocksOf m.logics⟩ :=
    (Simulator.after_circuit cs).trans (Simulator.settle_frame hs).circuit
  have hranked : Ranked (s.after cs).circuit.assigns rank := by
    rw [hc]
    exact hk
  constructor
  · have hclock : Ranked (s.after cs).clock.circuit.assigns rank := by
      rw [Simulator.circuit_clock]
      exact hranked
    obtain ⟨s', hs'⟩ := Simulator.settle_ranked hclock
    exact congrArg Prod.snd hs'
  · intro name v hname hfree
    have hdecl : (s.after cs).circuit.widths.contains name = true := by
      rw [hc]
      exact (contains_widthsOf m name).trans hname
    have hundriven : (s.after cs).circuit.isDriven name = false := by
      rw [hc]
      exact List.any_eq_false.2 fun a ha he => hfree a ha (by simpa using he)
    obtain ⟨s', hs'⟩ := Simulator.set_ranked (v := v) hranked hdecl hundriven
    exact congrArg Prod.snd hs'

section
variable {o : Options} {program : Program} {parts : Parts} {t : Task} {m : Module}

/-- What a generated module runs in simulators of its text only are the monitors of streams. -/
theorem monitors_of_generateTask (h : (generateTask o program parts t).2 = .ok m) :
    ∀ l ∈ m.monitors, ∃ name, l = streamMonitor name := by
  have hsame : parts.SameFaces parts := ⟨fun _ => rfl, fun _ => rfl⟩
  obtain ⟨hsilent, hmonitors⟩ := generateTask_silenced o program hsame t
  cases ho : o.debugMonitors with
  | true =>
    have hon : o.withMonitors true = o := by rw [Options.withMonitors, ← ho]
    rw [hon] at hmonitors
    rw [(hmonitors m h).2, Task.monitors]
    intro l hl
    obtain ⟨f, -, rfl⟩ := List.mem_map.1 hl
    exact ⟨f.name, rfl⟩
  | false =>
    have hoff : o.withMonitors false = o := by rw [Options.withMonitors, ← ho]
    rw [hoff] at hsilent
    rw [hsilent] at h
    cases hon : (generateTask (o.withMonitors true) program parts t).2 with
    | error e =>
      rw [hon] at h
      cases h
    | ok m' =>
      rw [hon] at h
      cases h
      simp [Module.monitors, Module.unmonitored]

/-- A generated module writes no target of an assignment in its blocks. -/
theorem targets_of_generateTask (h : (generateTask o program parts t).2 = .ok m) :
    ∀ body simulationOnly, .clocked body simulationOnly ∈ m.logics →
      ∀ r ∈ Stmt.allTargets body, ∀ a ∈ Circuit.assignsOf m.logics, a.1 ≠ r := by
  intro body simulationOnly hbody r hr a ha he
  cases simulationOnly with
  | true =>
    have hmonitor : .clocked body true ∈ m.monitors := List.mem_filter.2 ⟨hbody, rfl⟩
    obtain ⟨name, hname⟩ := monitors_of_generateTask h _ hmonitor
    cases hname
    simp [Stmt.allTargets, Stmt.targets] at hr
  | false =>
    obtain ⟨insts, items, -, hitems, hlayout⟩ := generateTask_layout h
    have hlogics : m.logics = logicsOf items := by
      rw [Module.addAll_eq hitems, Module.logics_pushAll]
      rfl
    have hreg : r ∈ registersOf items :=
      hlayout.wired.own body (mem_blocksIn.2 (mem_logicsOf.1 (hlogics ▸ hbody))) r hr
    have hfree := hlayout.wired.not_driven (c := ⟨{}, assignsIn items, []⟩)
      (Module.nodup_of_addAll hitems).1 rfl hreg
    have ha' : a ∈ assignsIn items := by
      rw [hlogics] at ha
      exact ha
    exact List.any_eq_false.1 hfree a ha' (by simpa using he)

/-- If no two external streams of a composite task are connected to one port, then its module
settles. -/
theorem generated_settles (h : (generateTask o program parts t).2 = .ok m)
    (hports : t.ConnectsApart m) :
    ((Circuit.assignsOf m.logics).map Prod.fst).Nodup ∧
    (∀ a ∈ Circuit.assignsOf m.logics, m.carries a.1 = true) ∧
    NoCycle (Circuit.assignsOf m.logics) ∧
    (∀ body simulationOnly, .clocked body simulationOnly ∈ m.logics →
      ∀ r ∈ Stmt.allTargets body, ∀ a ∈ Circuit.assignsOf m.logics, a.1 ≠ r) ∧
    ∃ s, Simulator.start m = .ok (s, none) ∧ ∀ cs, (s.after cs).step.2 = none ∧
      ∀ name v, m.carries name = true → (∀ a ∈ Circuit.assignsOf m.logics, a.1 ≠ name) →
        ((s.after cs).set name v).2 = none := by
  obtain ⟨cs, -, -, d, hd, rfl⟩ := generateTask_ok h
  obtain ⟨hdistinct, hdeclared, hacyclic⟩ := Plan.orderly_build hd hports
  exact ⟨hdistinct, hdeclared, hacyclic, targets_of_generateTask h,
    Module.runs_of_acyclic hdistinct hdeclared hacyclic⟩

end

def twoStreamTask : Task where
  name := "Top"
  level := .composite
  childTable := [⟨"A", [⟨0, [⟨"x", .istream, "in"⟩, ⟨"z", .ostream, "out"⟩, ⟨"n", .scalar, "n"⟩]⟩]⟩]
  fifoTable := [⟨"x", 0, none, some ⟨"A", 0⟩⟩, ⟨"z", 0, some ⟨"A", 0⟩, none⟩]

def twoStreamProgram : Program where
  top := "Top"
  taskTable := [{ name := "A", level := .leaf }, twoStreamTask]

theorem generated_settles_two_streams : ∃ m,
    (generateTask { registerLevel := 1 } twoStreamProgram { modules := [("A", relayModule)] }
      twoStreamTask).2 = .ok m ∧
    twoStreamTask.ConnectsApart m ∧ NoCycle (Circuit.assignsOf m.logics) ∧
    ∃ s, Simulator.start m = .ok (s, none) ∧ ∀ cs, (s.after cs).step.2 = none ∧
      ((s.after cs).set startPort 1).2 = none := by
  have hok : ((generateTask { registerLevel := 1 } twoStreamProgram
      { modules := [("A", relayModule)] } twoStreamTask).2.toOption.any fun m =>
        decide (twoStreamTask.ConnectsApart m) && m.carries startPort &&
          (Circuit.assignsOf m.logics).all fun a => a.1 != startPort) = true := by
    decide +kernel
  cases hm : (generateTask { registerLevel := 1 } twoStreamProgram
      { modules := [("A", relayModule)] } twoStreamTask).2 with
  | error e =>
    rw [hm] at hok
    cases hok
  | ok m =>
    rw [hm] at hok
    simp only [Except.toOption, Option.any_some, Bool.and_eq_true, decide_eq_true_eq,
      List.all_eq_true, bne_iff_ne] at hok
    obtain ⟨⟨hports, hstart⟩, hfree⟩ := hok
    obtain ⟨-, -, hacyclic, -, s, hs, hcalls⟩ := generated_settles hm hports
    exact ⟨m, rfl, hports, hacyclic, s, hs, fun cs =>
      ⟨(hcalls cs).1, (hcalls cs).2 startPort 1 hstart hfree⟩⟩

end TaskLoom
