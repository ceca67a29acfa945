import TaskLoom.Proofs.Composite.Generated
import TaskLoom.Proofs.Composite.Lookup
import TaskLoom.Proofs.Hdl.Misreading
import TaskLoom.Proofs.Hdl.Origin

/-!
# The interface of a skeleton in the text of its composite

A composite takes over the ports of its skeleton, and its parameters apart from the states of the
controller; nothing else that is added is a parameter (`interface_of_build`).  The skeleton was read
from some source, so its declarations stand there (`ReadFrom`), and if their texts are clear, they
are read where they stand in the text of the composite (`wellFormed_interface`).

Main statement: the composite is read back with the interface of its skeleton exactly if no port is
an escaped identifier and no declaration without a range is named like a type
(`interface_reread_iff`).
-/

namespace TaskLoom

open Source Build
open Text (bytes)

/-- The parameters of a skeleton that a composite takes over. -/
def takenParams (s : Module) : List Param :=
  s.params.filter fun q => !Text.beginsWith q.name stateParamMark

/-- What the composite of some name takes over from its skeleton, as a module of its own. -/
def Module.interface (s : Module) (name : String) : Module :=
  .ofInterface name "" s.ports (takenParams s)

/-- What a composite has besides the interface of its skeleton, as a module of its own. -/
def Module.besides (m s : Module) : Module :=
  { m with name := "besides", ports := m.ports.drop s.ports.length, params := [] }

theorem params_pushAll_of_keeps {m : Module} {items : List Item}
    (h : ∀ i ∈ items, i.KeepsInterface) : (m.pushAll items).params = m.params := by
  induction items generalizing m with
  | nil => rfl
  | cons i items ih =>
    obtain ⟨hi, hitems⟩ := List.forall_mem_cons.1 h
    refine (ih (m := m.push i) hitems).trans ?_
    cases i with
    | param q => exact hi.elim
    | _ => rfl

namespace Plan

variable {p : Plan} {s : Module}

theorem build_eq_of_skeleton (hskeleton : p.parts.skeleton? p.task.name = some s) : p.build = (do
    copyInterface s
    p.prepare
    p.task.fifos.forM p.addStream
    p.finish) := by
  unfold build declareInterface prepare finish
  rw [hskeleton]
  simp only [bind_assoc]
  rfl

/-- The module of a plan begins with the ports of its skeleton, and has the parameters that are
taken over and no others. -/
theorem interface_of_build (hskeleton : p.parts.skeleton? p.task.name = some s) {d : Draft}
    (h : p.build { module := .new p.task.name } = .ok () d) :
    s.ports <+: d.module.ports ∧ d.module.params = takenParams s := by
  rw [build_eq_of_skeleton hskeleton] at h
  obtain ⟨⟨⟩, d₁, hcopy, hrest⟩ := bind_ok.1 h
  have heach : Each (do p.prepare; p.task.fifos.forM p.addStream; p.finish) Item.KeepsInterface :=
    .bind p.each_prepare fun _ => .bind (.forM _ fun f _ => p.each_addStream f) fun _ =>
      p.each_finish
  obtain ⟨items, hitems, hkeep⟩ := heach _ _ _ hrest
  obtain ⟨⟨⟩, d₀, hports, hparams⟩ := bind_ok.1 hcopy
  obtain ⟨_, hports, rfl⟩ := adds_add _ _ _ _ hports
  obtain ⟨_, hparams, rfl⟩ := adds_add _ _ _ _ hparams
  have hd₁ : d₁.module = s.interface p.task.name := by
    rw [Module.addAll_eq (Module.addAll_append.2 ⟨_, hports, hparams⟩)]
    exact Module.pushAll_interface _ _ _
  rw [Module.addAll_eq hitems, Module.ports_pushAll, params_pushAll_of_keeps hkeep, hd₁]
  exact ⟨List.prefix_append _ _, rfl⟩

end Plan

/-- The bounds of a range are read where they stand, and stay as they are. -/
def ClearRange (r : Option BitRange) : Prop :=
  ∀ b ∈ r, isClear b.msb = true ∧ isClear b.lsb = true

instance : DecidablePred ClearRange := fun r =>
  inferInstanceAs (Decidable (∀ b ∈ r, isClear b.msb = true ∧ isClear b.lsb = true))

/-- A module with names that stay as they are when a source is blanked out, and with bounds and
values that also do not end in an escaped identifier. -/
structure Module.Clear (m : Module) : Prop where
  name : isStable m.name = true
  ports : ∀ p ∈ m.ports, isStable p.name = true ∧ ClearRange p.range
  params : ∀ q ∈ m.params, isStable q.name = true ∧ isClear q.value = true ∧ ClearRange q.range

instance : DecidablePred Module.Clear := fun m =>
  decidable_of_iff (isStable m.name = true ∧
      (∀ p ∈ m.ports, isStable p.name = true ∧ ClearRange p.range) ∧
      ∀ q ∈ m.params, isStable q.name = true ∧ isClear q.value = true ∧ ClearRange q.range)
    ⟨fun ⟨h₁, h₂, h₃⟩ => ⟨h₁, h₂, h₃⟩, fun ⟨h₁, h₂, h₃⟩ => ⟨h₁, h₂, h₃⟩⟩

theorem ClearRange.stable {r : Option BitRange} (h : ClearRange r) :
    ∀ b ∈ r, isStable b.msb = true ∧ isStable b.lsb = true := by
  intro b hb
  obtain ⟨hmsb, hlsb⟩ := h b hb
  rw [isClear, Bool.and_eq_true] at hmsb hlsb
  exact ⟨hmsb.1, hlsb.1⟩

/-- The clear interface of a skeleton from a source is read where it stands. -/
theorem wellFormed_interface {text name : String} {s : Module}
    (hs : ReadFrom (strip (bytes text)) s) (hname : IsName name)
    (hclear : (s.interface name).Clear) : (s.interface name).WellFormed where
  name := hname
  ports := by
    intro p hp
    obtain ⟨hpname, hdirection, hrange⟩ := hs.ports p hp
    obtain ⟨-, hbounds⟩ := hclear.ports p hp
    exact ⟨hpname.isName, hdirection, fun b hb =>
      (hrange b hb).isRange (hbounds b hb).1 (hbounds b hb).2⟩
  params := by
    intro q hq
    obtain ⟨hqname, hvalue, hrange⟩ := hs.params q (List.mem_of_mem_filter hq)
    obtain ⟨-, hclosed, hbounds⟩ := hclear.params q hq
    exact ⟨hqname.isName, hvalue.isValue hclosed, fun b hb =>
      (hrange b hb).isRange (hbounds b hb).1 (hbounds b hb).2⟩
  keptName := kept_moduleName hclear.name
  keptNames := fun p hp => kept_name (hs.ports p hp).1.isName.name (hclear.ports p hp).1
  keptPorts := by
    intro p hp
    obtain ⟨hpname, hbounds⟩ := hclear.ports p hp
    exact kept_portLine_stable hpname hbounds.stable
  keptParams := by
    intro q hq
    obtain ⟨hqname, hvalue, hbounds⟩ := hclear.params q hq
    rw [isClear, Bool.and_eq_true] at hvalue
    exact kept_paramLine_stable hqname hvalue.1 hbounds.stable

section
variable {m s : Module}

theorem Module.forall_ports (h : s.ports <+: m.ports) {P : Port → Prop} (hs : ∀ p ∈ s.ports, P p)
    (hrest : ∀ p ∈ (m.besides s).ports, P p) : ∀ p ∈ m.ports, P p := by
  obtain ⟨extra, hsplit⟩ := h
  have hextra : (m.besides s).ports = extra := by
    rw [besides, ← hsplit]
    exact List.drop_left
  rw [← hsplit, ← hextra]
  exact List.forall_mem_append.2 ⟨hs, hrest⟩

/-- A module is well-formed if an interface and the rest of it are. -/
theorem Module.WellFormed.of_besides (hi : (s.interface m.name).WellFormed)
    (hports : s.ports <+: m.ports) (hparams : m.params = takenParams s)
    (hrest : (m.besides s).WellFormed) : m.WellFormed where
  name := hi.name
  ports := forall_ports hports hi.ports hrest.ports
  params := hparams ▸ hi.params
  keptName := hi.keptName
  keptNames := forall_ports hports hi.keptNames hrest.keptNames
  keptPorts := forall_ports hports hi.keptPorts hrest.keptPorts
  keptParams := hparams ▸ hi.keptParams

end

/-! ### Reading a composite back -/

section
variable {o : Options} {program : Program} {parts : Parts} {t : Task} {m s : Module}

/-- The composite of a skeleton with clear texts is well-formed, and has nothing besides its
interface that would be read as a declaration. -/
theorem wellFormed_composite {text : String} {ms : List Module}
    (hparse : Source.parse text = .ok ms) (hs : s ∈ ms)
    (hskeleton : parts.skeleton? t.name = some s) (hname : IsName t.name)
    (h : (generateTask o program parts t).2 = .ok m) (hclear : (s.interface t.name).Clear)
    (hplain : (m.besides s).Plain) (hlegible : (m.besides s).Legible) :
    (m.Built t.name ∧ m.WellFormed ∧ Inert (bytes (insideText m))) ∧
      s.ports <+: m.ports ∧ m.params = takenParams s := by
  obtain ⟨cs, -, -, d, hd, rfl⟩ := generateTask_ok h
  obtain ⟨hports, hparams⟩ := Plan.interface_of_build hskeleton hd
  obtain ⟨items, hitems, -⟩ := Plan.layout_build _ _ _ _ hd
  have hmname : d.module.name = t.name := Module.name_of_addAll hitems
  have hsame : insideText (d.module.besides s) = insideText d.module := rfl
  have hinert := inert_inside hplain hlegible
  rw [hsame] at hinert
  have hw : d.module.WellFormed :=
    .of_besides (hmname ▸ wellFormed_interface (parse_from hparse s hs) hname hclear) hports hparams
      (hplain.readable hlegible).toWellFormed
  exact ⟨⟨.addAll .empty hitems, hw, hinert⟩, hports, hparams⟩

/-- A composite is no source if its skeleton has an escaped port, or a declaration without a range
that is named like a type. -/
theorem composite_misread {text : String} {ms : List Module}
    (hparse : Source.parse text = .ok ms) (hs : s ∈ ms)
    (hskeleton : parts.skeleton? t.name = some s) (hname : IsName t.name)
    (h : (generateTask o program parts t).2 = .ok m) (hclear : (s.interface t.name).Clear)
    (hplain : (m.besides s).Plain) (hlegible : (m.besides s).Legible)
    (hbad : ¬ ((∀ p ∈ s.ports, isEscaped p.name = false ∧ (p.range = none → p.name ∉ typeWords)) ∧
      ∀ q ∈ takenParams s, q.range = none → q.name ∉ typeWords)) :
    ∃ e, Source.parse m.render = .error e := by
  obtain ⟨⟨hbuilt, hw, hinert⟩, hports, hparams⟩ :=
    wellFormed_composite hparse hs hskeleton hname h hclear hplain hlegible
  refine parse_misread hbuilt.verbatim hw (fun hr => hbad ⟨fun p hp => ?_, fun q hq => ?_⟩) hinert
  · have hp := hports.subset hp
    exact ⟨hr.plain p hp, hr.typedPorts p hp⟩
  · exact hr.typedParams q (hparams ▸ hq)

/-- The composite of a skeleton with clear texts is read back with the interface of the skeleton,
unless a name is read as something else: an escaped identifier with what stands right behind it, or
a type word without a range as a type. -/
theorem interface_reread_iff {text : String} {ms : List Module}
    (hparse : Source.parse text = .ok ms) (hs : s ∈ ms)
    (hskeleton : parts.skeleton? t.name = some s) (hname : IsName t.name)
    (h : (generateTask o program parts t).2 = .ok m) (hclear : (s.interface t.name).Clear)
    (hplain : (m.besides s).Plain) (hlegible : (m.besides s).Legible) :
    (∃ m', Source.parse m.render = .ok [m'] ∧ s.ports <+: m'.ports ∧ m'.params = takenParams s) ↔
      (∀ p ∈ s.ports, isEscaped p.name = false ∧ (p.range = none → p.name ∉ typeWords)) ∧
        ∀ q ∈ takenParams s, q.range = none → q.name ∉ typeWords := by
  constructor
  · rintro ⟨m', hm', -, -⟩
    by_contra hbad
    obtain ⟨e, he⟩ :=
      composite_misread hparse hs hskeleton hname h hclear hplain hlegible hbad
    rw [he] at hm'
    cases hm'
  · rintro ⟨hgood, hgood'⟩
    obtain ⟨⟨hbuilt, hw, hinert⟩, hports, hparams⟩ :=
      wellFormed_composite hparse hs hskeleton hname h hclear hplain hlegible
    have hrest := hplain.readable hlegible
    have hall : ∀ p ∈ m.ports, isEscaped p.name = false ∧ (p.range = none → p.name ∉ typeWords) :=
      Module.forall_ports hports hgood fun p hp => ⟨hrest.plain p hp, hrest.typedPorts p hp⟩
    have hr : m.Readable := ⟨hw, fun p hp => (hall p hp).1, fun p hp => (hall p hp).2,
      hparams ▸ hgood'⟩
    exact ⟨_, parse_framed hbuilt.verbatim hr hbuilt.nodup hinert, hports, hparams⟩

end

def skeletonTask : Task := { name := "Top", level := .composite, childTable := [⟨"A", [⟨0, []⟩]⟩] }

def skeletonProgram : Program := ⟨"Top", [{ name := "A", level := .leaf }, skeletonTask]⟩

/-- A source with one skeleton, with some last port. -/
def skeletonSource (port : String) : String :=
  "module Top (input ap_clk, ap_rst_n, ap_start, output ap_done, ap_idle, ap_ready,\n" ++
  "  input [W - 1:0] " ++ port ++ ");\n  parameter W = 32, ap_ST_fsm_state1 = 1;\n" ++
  "  localparam [3:0] \\w+1 = f(W, 1);\nendmodule\n"

def skeletonStock (s : Module) : Parts := { leafStock with skeletons := [("Top", s)] }

/-- The only module of a source, and the composite that is generated with it as the skeleton. -/
def regenerated? (text : String) : Option (Module × Module) := do
  let [s] ← (Source.parse text).toOption | none
  let m ← (generateTask {} skeletonProgram (skeletonStock s) skeletonTask).2.toOption
  return (s, m)

theorem regenerated?_some {text : String} {s m : Module} (h : regenerated? text = some (s, m)) :
    Source.parse text = .ok [s] ∧
      (generateTask {} skeletonProgram (skeletonStock s) skeletonTask).2 = .ok m := by
  obtain ⟨ms, hms, h⟩ := Option.bind_eq_some_iff.1 h
  split at h
  · rename_i s'
    obtain ⟨m', hm', h⟩ := Option.bind_eq_some_iff.1 h
    cases h
    exact ⟨toOption_eq_some.1 hms, toOption_eq_some.1 hm'⟩
  · cases h

theorem interface_reread_counter : ∃ s m, Source.parse (skeletonSource "n") = .ok [s] ∧
    (generateTask {} skeletonProgram (skeletonStock s) skeletonTask).2 = .ok m ∧
    ∃ m', Source.parse m.render = .ok [m'] ∧ s.ports <+: m'.ports ∧ m'.params = takenParams s := by
  have hall : (regenerated? (skeletonSource "n")).any (fun (s, m) =>
      decide ((s.interface "Top").Clear ∧ (m.besides s).Plain ∧ (m.besides s).Legible ∧
        (∀ p ∈ s.ports, isEscaped p.name = false ∧ (p.range = none → p.name ∉ typeWords)) ∧
        ∀ q ∈ takenParams s, q.range = none → q.name ∉ typeWords)) = true := by
    decide +kernel
  obtain ⟨⟨s, m⟩, hsm, hall⟩ := (Option.any_eq_true _ _).1 hall
  obtain ⟨hclear, hplain, hlegible, hgood⟩ := of_decide_eq_true hall
  obtain ⟨hparse, hgenerate⟩ := regenerated?_some hsm
  have hname : IsName skeletonTask.name := .of_plain (by decide)
  exact ⟨s, m, hparse, hgenerate, (interface_reread_iff hparse List.mem_cons_self rfl hname hgenerate
    hclear hplain hlegible).2 hgood⟩

/-- The text of a composite with an escaped identifier for a port is no source. -/
theorem escaped_port_lost : ∃ s m, Source.parse (skeletonSource "\\a+b ") = .ok [s] ∧
    (generateTask {} skeletonProgram (skeletonStock s) skeletonTask).2 = .ok m ∧
    ∀ ms, Source.parse m.render ≠ .ok ms := by
  have hall : (regenerated? (skeletonSource "\\a+b ")).any (fun (s, m) =>
      decide ((s.interface "Top").Clear ∧ (m.besides s).Plain ∧ (m.besides s).Legible ∧
        ∃ p ∈ s.ports, isEscaped p.name = true)) = true := by
    decide +kernel
  obtain ⟨⟨s, m⟩, hsm, hall⟩ := (Option.any_eq_true _ _).1 hall
  obtain ⟨hclear, hplain, hlegible, p, hp, hescaped⟩ := of_decide_eq_true hall
  obtain ⟨hparse, hgenerate⟩ := regenerated?_some hsm
  have hname : IsName skeletonTask.name := .of_plain (by decide)
  have hbad : ¬ isEscaped p.name = false := ne_false_of_eq_true hescaped
  obtain ⟨e, he⟩ := composite_misread hparse List.mem_cons_self rfl hname hgenerate hclear hplain
    hlegible fun hgood => hbad (hgood.1 p hp).1
  refine ⟨s, m, hparse, hgenerate, fun ms hms => ?_⟩
  rw [he] at hms
  cases hms

end TaskLoom
