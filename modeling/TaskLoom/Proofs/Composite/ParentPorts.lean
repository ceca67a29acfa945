import TaskLoom.Proofs.Composite.Grounds
import TaskLoom.Proofs.Composite.Orderly
import TaskLoom.Proofs.Composite.Regeneration
import TaskLoom.Proofs.Graph.Acceptance

/-!
# Ports of the parent

A scalar or a memory of an instance is a constant, or comes from a port of the composite.  This is
judged twice.  For the check of a program any name with a tick is a constant, and the argument only
has to be a memory if the declared port of its name is one.  The construction of the module wants a
complete sized literal, or a name that the module declares, and a declared stream `s` gives it the
names `s_dout` and so on, but not `s`.

`Task.Overlooks t a`: the check passes the argument `a`, and the interface has nothing for it.

Main statement: in an accepted program these are the arguments without a source, and the
construction fails for the lack of a parent port only on such an argument (`parent_ports_iff`).
-/

namespace TaskLoom

open Build

/-- The names of the interface that is derived from declared ports. -/
def Task.interfaceNames (t : Task) : List String :=
  basePorts.map Port.name ++ t.ports.flatMap TaskPort.portNames

/-- The argument is no sized literal and no port of the interface, but checking is content with it:
it has a tick in its name, or it is a scalar and the declared port of its name is a stream. -/
structure Task.Overlooks (t : Task) (a : Arg) : Prop where
  unsized : Literal.sized? a.name = none
  absent : a.name ∉ t.interfaceNames
  passed : looksConstant a.name = true ∨
    a.category = .scalar ∧ ∃ q, t.port? a.name = some q ∧ q.category.isStream = true

/-- The argument is a constant, or the search for its source finds the port of its name. -/
def Arg.HasSource (a : Arg) (m : Module) : Prop :=
  (Literal.sized? a.name).isSome = true ∨ parentSignal? m a = some a.name ∧ a.name ∈ portNames m

theorem parentSignal?_of_declared {m : Module} {a : Arg} (h : m.declared a.name = true) :
    parentSignal? m a = some a.name := by
  simp [parentSignal?, h]

theorem declared_eq_false_of_parentSignal? {m : Module} {a : Arg} (h : parentSignal? m a = none) :
    m.declared a.name = false := by
  have hall := List.find?_eq_none.1 h
  simpa using hall a.name List.mem_cons_self

namespace Task

variable {t : Task} {i : Instance} {a : Arg}

theorem parentPort_of_argIssues (h : t.argIssues i a = []) (hports : t.ports ≠ [])
    (hstream : a.category.isStream = false) : looksConstant a.name = true ∨
      ∃ q, t.port? a.name = some q ∧ q.category.isMmap = a.category.isMmap := by
  have hparent : t.parentPortIssues i a = [] := by
    unfold argIssues at h
    split at h
    · cases h
    split at h
    · cases h
    rwa [if_neg (by simp [hstream])] at h
  unfold parentPortIssues at hparent
  split at hparent
  · rename_i hskip
    simp only [Bool.or_eq_true, List.isEmpty_iff] at hskip
    exact .inl (hskip.resolve_left hports)
  · cases hq : t.port? a.name with
    | none => simp [hq] at hparent
    | some q => exact .inr ⟨q, rfl, by simpa [hq] using hparent⟩

theorem mem_interfaceNames {q : TaskPort} (hq : q ∈ t.ports) (hroles : q.roles = [""]) :
    q.name ∈ t.interfaceNames := by
  refine List.mem_append_right _ (List.mem_flatMap.2 ⟨q, hq, ?_⟩)
  simp [TaskPort.portNames, hroles]

/-- An argument that passes the check without being a constant or a port of the interface is
overlooked. -/
theorem Overlooks.of_argIssues (h : t.argIssues i a = []) (hports : t.ports ≠ [])
    (hvalid : ∀ q ∈ t.ports, q.category.isValid = true) (hstream : a.category.isStream = false)
    (hunsized : Literal.sized? a.name = none) (habsent : a.name ∉ t.interfaceNames) :
    t.Overlooks a := by
  refine ⟨hunsized, habsent, ?_⟩
  rcases parentPort_of_argIssues h hports hstream with htick | ⟨q, hq, hmmap⟩
  · exact .inl htick
  have hmem : q ∈ t.ports := List.mem_of_find?_eq_some hq
  have hname : q.name = a.name := by simpa using List.find?_some hq
  have hroles : q.roles ≠ [""] := fun hroles => habsent (hname ▸ mem_interfaceNames hmem hroles)
  have hcategory := (bound_of_argIssues h).category
  cases hqc : q.category with
  | scalar => simp [TaskPort.roles, hqc] at hroles
  | mmap => simp [TaskPort.roles, hqc] at hroles
  | asyncMmap => simp [TaskPort.roles, hqc] at hroles
  | unknown code =>
    have hknown := hvalid q hmem
    rw [hqc] at hknown
    cases hknown
  | istream | ostream =>
    refine .inr ⟨?_, q, hq, by rw [hqc]; rfl⟩
    rw [hqc] at hmmap
    cases hac : a.category <;> simp_all [Category.isStream, Category.isMmap, Category.isValid]

end Task

/-! ### What the construction declares -/

namespace Plan

variable {p : Plan}

theorem valid_of_deriveInterface (hports : p.task.ports ≠ []) {d d' : Draft}
    (h : p.deriveInterface d = .ok () d') : ∀ q ∈ p.task.ports, q.category.isValid = true := by
  intro q hq
  unfold deriveInterface at h
  rw [if_neg (by simpa using hports)] at h
  obtain ⟨⟨⟩, d₁, -, h⟩ := bind_ok.1 h
  obtain ⟨-, -, d₂, d₃, -, -, hstep, -⟩ := forM_mem hq h
  obtain ⟨ports, d₄, hinterface, -⟩ := bind_ok.1 hstep
  cases hc : q.category with
  | unknown code =>
    rw [hc] at hinterface
    cases hinterface
  | _ => rfl

/-- The interface of a task without a skeleton has the ports that were declared, and no others. -/
theorem portNames_of_declareInterface (hskeleton : p.parts.skeleton? p.task.name = none)
    (hports : p.task.ports ≠ []) {d d' : Draft} (hd : d.module.ports = [])
    (h : p.declareInterface d = .ok () d') : portNames d'.module = p.task.interfaceNames ∧
      ∀ q ∈ p.task.ports, q.category.isValid = true := by
  unfold declareInterface at h
  rw [hskeleton] at h
  obtain ⟨⟨⟩, d₁, hderive, h⟩ := bind_ok.1 h
  obtain ⟨m, d₂, hmodule, h⟩ := bind_ok.1 h
  cases hmodule
  obtain ⟨⟨⟩, d₃, hrequire, hadd⟩ := bind_ok.1 h
  obtain ⟨rfl, -⟩ := reads_requireHandshake _ _ _ _ _ hrequire
  obtain ⟨m', hm', rfl⟩ := add_ok hadd
  obtain ⟨_, hitems, ports, rfl, hnames, -⟩ := adds_deriveInterface hports _ _ _ hderive
  refine ⟨?_, valid_of_deriveInterface hports hderive⟩
  rw [portNames_of_addAll hm', portNames_of_addAll hitems, portNames, hd]
  simp [Task.interfaceNames, portNamesOf, portsOf, List.filterMap_map, Function.comp_def,
    Item.port?, hnames]

/-- If all arguments without a source in the interface are overlooked, the construction fails for
the lack of a parent port on such an argument only. -/
theorem Supplied.overlooked_of_build (h : p.Supplied)
    (hskeleton : p.parts.skeleton? p.task.name = none) (hports : p.task.ports ≠ []) {d : Draft}
    (hd : d.module = .new p.task.name)
    (hoverlooks : ∀ d', p.declareInterface d = .ok () d' → ∀ c ∈ p.children, ∀ a ∈ c.inst.args,
      a.category.isStream = false → Literal.sized? a.name = none →
        a.name ∉ p.task.interfaceNames → p.task.Overlooks a)
    {placed n : String} {k : Category} {d' : Draft}
    (hbuild : p.build d = .error (.noParentPort placed k n) d') :
    ∃ c ∈ p.children, c.name = placed ∧ ∃ a ∈ c.inst.args, a.category = k ∧ a.name = n ∧
      p.task.Overlooks a := by
  rw [build_eq] at hbuild
  rcases bind_error.1 hbuild with hfirst | ⟨⟨⟩, d₁, hdeclare, hrest⟩
  · cases (h.grounds_declareInterface _ _ _ hfirst).2
  obtain ⟨hnames, -⟩ := portNames_of_declareInterface hskeleton hports (by rw [hd]; rfl) hdeclare
  have htallied : d₁.module.Tallied :=
    p.adds_declareInterface.tallied hdeclare (hd ▸ Module.tallied_new _)
  have hdeclared : ∀ n ∈ p.task.interfaceNames, d₁.module.declared n = true := fun n hn =>
    Module.declared_of_carries htallied (Module.carries_of_port (hnames ▸ hn))
  let E (e : WiringError) : Prop := e.isParentPort = true → ∃ c ∈ p.children, ∃ a ∈ c.inst.args,
    e = .noParentPort c.name a.category a.name ∧ p.task.Overlooks a
  have hother : ∀ e, p.OtherGrounds e → E e := fun e he hparent => by simp [he.2] at hparent
  have hsource : ∀ c ∈ p.children, ∀ a ∈ c.inst.args, a.category.isStream = false →
      (p.argSource c a).FailsKnowing p.task.interfaceNames E := by
    intro c hc a ha hstream d₂ e d₃ hK hr
    rcases h.argSource_error hc hr with he | ⟨hunsized, hnone, rfl⟩
    · exact hother e he
    · refine fun _ => ⟨c, hc, a, ha, rfl, hoverlooks _ hdeclare c hc a ha hstream hunsized ?_⟩
      intro hmem
      have hfound := hK _ hmem
      rw [declared_eq_false_of_parentSignal? hnone] at hfound
      cases hfound
  obtain ⟨c, hc, a, ha, he, ho⟩ :=
    h.failsKnowing_body hother hsource d₁ _ d' hdeclared hrest rfl
  cases he
  exact ⟨c, hc, rfl, a, ha, rfl, rfl, ho⟩

end Plan

theorem isComposite_of_plan {o : Options} {program : Program} {parts : Parts} {t : Task} {p : Plan}
    (h : plan o program parts t = .ok p) : t.isComposite = true := by
  by_contra hleaf
  rw [Bool.not_eq_true] at hleaf
  simp [plan, hleaf, bind, Except.bind] at h

/-- In an accepted program the scalar and memory arguments of a composite with declared ports and
without a skeleton have a source in its interface, except for those that checking overlooks.  If the
construction of the module fails for the lack of a parent port, then on such an argument. -/
theorem parent_ports_iff {program : Program} {t : Task} {o : Options} {parts : Parts} {p : Plan}
    (hcheck : Program.check (some program) = .ok ()) (ht : t ∈ program.taskTable)
    (hports : t.ports ≠ []) (hskeleton : parts.skeleton? t.name = none)
    (hplan : plan o program parts t = .ok p) :
    (∀ d, p.declareInterface { module := .new t.name } = .ok () d →
      ∀ c ∈ p.children, ∀ a ∈ c.inst.args, a.category.isStream = false →
        (a.HasSource d.module ↔ ¬ t.Overlooks a)) ∧
    ∀ placed k n d,
      p.build { module := .new t.name } = .error (.noParentPort placed k n) d →
        ∃ c ∈ p.children, c.name = placed ∧ ∃ a ∈ c.inst.args, a.category = k ∧ a.name = n ∧
          t.Overlooks a := by
  have hsupplied := supplied_of_plan hplan
  have hcomposite := isComposite_of_plan hplan
  obtain ⟨insts, cs, hinsts, hcs, rfl⟩ := plan_ok hplan
  -- an argument of an instance that the interface has nothing for
  have hoverlooks {d : Draft} (hd : Plan.declareInterface ⟨o, program, parts, t, cs⟩
      { module := .new t.name } = .ok () d) {c : Placement} (hc : c ∈ cs) {a : Arg}
      (ha : a ∈ c.inst.args) (hstream : a.category.isStream = false)
      (hunsized : Literal.sized? a.name = none) (habsent : a.name ∉ t.interfaceNames) :
      t.Overlooks a := by
    have hmem : c.inst ∈ insts := inst_placements hcs ▸ List.mem_map_of_mem hc
    exact .of_argIssues (Program.argIssues_of_check hcheck ht hcomposite hinsts _ hmem a ha) hports
      (Plan.portNames_of_declareInterface hskeleton hports rfl hd).2 hstream hunsized habsent
  constructor
  · intro d hd c hc a ha hstream
    obtain ⟨hnames, -⟩ := Plan.portNames_of_declareInterface hskeleton hports rfl hd
    constructor
    · rintro (hsized | ⟨-, hport⟩) ho
      · simp [ho.unsized] at hsized
      · exact ho.absent (hnames ▸ hport)
    · intro hnot
      cases hsized : Literal.sized? a.name with
      | some s => exact .inl (by simp [hsized])
      | none =>
        have hport : a.name ∈ portNames d.module := by
          rw [hnames]
          by_contra habsent
          exact hnot (hoverlooks hd hc ha hstream hsized habsent)
        have htallied : d.module.Tallied :=
          (Plan.adds_declareInterface _).tallied hd (Module.tallied_new _)
        exact .inr ⟨parentSignal?_of_declared
          (Module.declared_of_carries htallied (Module.carries_of_port hport)), hport⟩
  · exact fun placed k n d' hbuild => hsupplied.overlooked_of_build hskeleton hports rfl
      (fun d hd c hc a ha hstream hunsized habsent => hoverlooks hd hc ha hstream hunsized habsent)
      hbuild

/-- A composite that declares the scalar `n` and the stream `s`.  Its only instance has the given
arguments. -/
def portedTask (args : List Arg) : Task where
  name := "Top"
  level := .composite
  ports := [⟨"n", .scalar, "int", 32⟩, ⟨"s", .istream, "int", 32⟩]
  childTable := [⟨"A", [⟨0, args⟩]⟩]

def portedProgram (args : List Arg) : Program :=
  ⟨"Top", [{ name := "A", level := .leaf }, portedTask args]⟩

def portedPlan (args : List Arg) : Plan where
  options := {}
  program := portedProgram args
  parts := leafStock
  task := portedTask args
  children := [⟨⟨{ name := "A", level := .leaf }, 0, 0, Text.sortedBy Arg.name args⟩,
    { name := "A", ports := basePorts }⟩]

theorem plan_ported (args : List Arg) :
    plan {} (portedProgram args) leafStock (portedTask args) = .ok (portedPlan args) := rfl

def soundArgs : List Arg := [⟨"n", .scalar, "x"⟩, ⟨"8'd3", .scalar, "y"⟩]

theorem parent_ports_ported :
    Program.check (some (portedProgram soundArgs)) = .ok () ∧
    portedTask soundArgs ∈ (portedProgram soundArgs).taskTable ∧
    (portedTask soundArgs).ports ≠ [] ∧ leafStock.skeleton? "Top" = none ∧
    plan {} (portedProgram soundArgs) leafStock (portedTask soundArgs) =
      .ok (portedPlan soundArgs) ∧
    ∃ d, (portedPlan soundArgs).declareInterface { module := .new "Top" } = .ok () d ∧
      ∀ a ∈ soundArgs, a.HasSource d.module := by
  have hcheck : Program.check (some (portedProgram soundArgs)) = .ok () := by decide +kernel
  have hsound : ∀ a ∈ soundArgs, a.category.isStream = false ∧
      ((Literal.sized? a.name).isSome = true ∨ a.name ∈ (portedTask soundArgs).interfaceNames) := by
    decide +kernel
  have hmem : portedTask soundArgs ∈ (portedProgram soundArgs).taskTable := .tail _ (.head _)
  obtain ⟨hsource, -⟩ := parent_ports_iff hcheck hmem (by decide) rfl (plan_ported soundArgs)
  refine ⟨hcheck, hmem, by decide, rfl, plan_ported _, _, rfl, fun a ha => ?_⟩
  obtain ⟨hstream, hgood⟩ := hsound a ha
  refine (hsource _ rfl _ (.head _) a (Text.mem_sortedBy.2 ha) hstream).2 fun ho => ?_
  rcases hgood with hsized | hport
  · simp [ho.unsized] at hsized
  · exact ho.absent hport

/-- How the construction of the module of a plan fails. -/
def Plan.failure? (p : Plan) : Option WiringError :=
  match p.build { module := .new p.task.name } with
  | .ok .. => none
  | .error e _ => some e

/-- A name with a tick that is no literal, and a scalar that is called like a stream: both are
accepted, and neither has a parent port. -/
theorem arguments_overlooked :
    (Program.check (some (portedProgram [⟨"a'b", .scalar, "x"⟩])) = .ok () ∧
      (portedPlan [⟨"a'b", .scalar, "x"⟩]).failure? =
        some (.noParentPort "A_0" .scalar "a'b")) ∧
    Program.check (some (portedProgram [⟨"s", .scalar, "x"⟩])) = .ok () ∧
      (portedPlan [⟨"s", .scalar, "x"⟩]).failure? = some (.noParentPort "A_0" .scalar "s") := by
  decide +kernel

end TaskLoom
