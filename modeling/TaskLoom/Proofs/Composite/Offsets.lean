import TaskLoom.Composite.Memory
import TaskLoom.Proofs.Composite.Growth
import Mathlib.Data.List.Nodup

/-!
# The address of a memory

The address of a memory argument goes to a port of the child.  `Module.TakesOffset m port ending`:
the child `m` has a port that is meant for the memory `port`, and its name is `port ++ ending`.  The
search for it looks at the two ends of a name only and takes the first port that fits, so it finds
this port if no port that is declared before it fits as well (`Module.Unobscured`).

Main statement: the address goes to the port that is meant for it exactly if that port is
unobscured (`offset_binding_iff`).
-/

namespace TaskLoom

namespace Module

/-- The ports that are declared before the first one of a name. -/
def portsBefore (m : Module) (name : String) : List Port := m.ports.takeWhile (·.name != name)

/-- The port of a child that is meant for the address of a memory: it is named after the memory with
`_offset` behind it, or just like the memory if no port of the child ends like one for an address,
as in a composite. -/
inductive TakesOffset (m : Module) (port : String) : (ending : String) → Prop where
  | marked (h : (m.port? (port ++ "_offset")).isSome = true) : TakesOffset m port "_offset"
  | plain (h : (m.port? port).isSome = true)
      (hends : ∀ q ∈ m.ports, ∀ s ∈ ["_offset", "_data_V", "_V"], Text.endsWith q.name s = false) :
      TakesOffset m port ""

/-- No port that is declared before `port ++ ending` has the same two ends. -/
def Unobscured (m : Module) (port ending : String) : Prop :=
  ∀ q ∈ m.portsBefore (port ++ ending),
    ¬ (Text.beginsWith q.name port = true ∧ Text.endsWith q.name ending = true)

instance (m : Module) (port ending : String) : Decidable (m.Unobscured port ending) :=
  inferInstanceAs (Decidable (∀ q ∈ m.portsBefore (port ++ ending), _))

end Module

theorem beginsWith_append (s t : String) : Text.beginsWith (s ++ t) s = true := by
  simp [Text.beginsWith]

theorem endsWith_append (s t : String) : Text.endsWith (s ++ t) t = true := by
  simp [Text.endsWith]

/-- The first element that satisfies `p` satisfies the stronger `q` exactly if no element before the
first one that satisfies `q` satisfies `p`. -/
theorem find?_of_stronger {α : Type} {p q : α → Bool} (hqp : ∀ x, q x = true → p x = true)
    {l : List α} (h : (l.find? q).isSome = true) :
    ∃ a, l.find? p = some a ∧ (q a = true ↔ ∀ x ∈ l.takeWhile (!q ·), p x = false) := by
  induction l with
  | nil => simp at h
  | cons x l ih =>
    by_cases hq : q x = true
    · exact ⟨x, by simp [hqp x hq], by simp [hq]⟩
    · by_cases hp : p x = true
      · exact ⟨x, by simp [hp], by simp [hq, hp]⟩
      · obtain ⟨a, ha, hiff⟩ := ih (by simpa [hq] using h)
        exact ⟨a, by simp [hp, ha], by simp [hq, hp, hiff]⟩

namespace Module

variable {m : Module} {mem ending : String}

/-- The search finds something if there is a port of the whole name, and finds that port exactly if
no earlier port has the same two ends. -/
theorem findPort?_named (h : (m.port? (mem ++ ending)).isSome = true) :
    ∃ q, m.findPort? mem ending = some q ∧ (q.name = mem ++ ending ↔ m.Unobscured mem ending) := by
  obtain ⟨q, hq, hiff⟩ := find?_of_stronger (p := fun q : Port =>
    Text.beginsWith q.name mem && Text.endsWith q.name ending) (fun q hq => by
      simp [eq_of_beq hq, beginsWith_append, endsWith_append]) h
  refine ⟨q, hq, beq_iff_eq.symm.trans (hiff.trans ?_)⟩
  refine forall₂_congr fun x _ => ?_
  rw [← Bool.not_eq_true, Bool.and_eq_true]

namespace TakesOffset

theorem isSome_port? (h : m.TakesOffset mem ending) : (m.port? (mem ++ ending)).isSome = true := by
  cases h with
  | marked h => exact h
  | plain h hends => rwa [String.append_empty]

theorem port?_offset_eq_none (hends : ∀ q ∈ m.ports, Text.endsWith q.name "_offset" = false)
    (mem : String) : m.port? (mem ++ "_offset") = none := by
  refine List.find?_eq_none.2 fun q hq hname => ?_
  have hend := hends q hq
  rw [eq_of_beq hname, endsWith_append] at hend
  cases hend

/-- The ports that are meant for two memories are different. -/
theorem name_ne {mem' ending' : String} (h : m.TakesOffset mem ending)
    (h' : m.TakesOffset mem' ending') (hne : mem ≠ mem') : mem ++ ending ≠ mem' ++ ending' := by
  cases h with
  | marked h =>
    cases h' with
    | marked h' => exact fun he => hne ((String.append_left_inj _).1 he)
    | plain h' hends =>
      rw [port?_offset_eq_none fun q hq => hends q hq _ (by simp)] at h
      cases h
  | plain h hends =>
    cases h' with
    | marked h' =>
      rw [port?_offset_eq_none fun q hq => hends q hq _ (by simp)] at h'
      cases h'
    | plain h' hends' => simpa using hne

/-- The search for the port of an address ends with the ending of the port that is meant for it. -/
theorem offsetPort?_eq (h : m.TakesOffset mem ending) : ∃ q, offsetPort? m mem = some (ending, q) ∧
    (q.name = mem ++ ending ↔ m.Unobscured mem ending) := by
  obtain ⟨q, hq, hiff⟩ := findPort?_named h.isSome_port?
  refine ⟨q, ?_, hiff⟩
  cases h with
  | marked h => simp [offsetPort?, offsetSuffixes, hq]
  | plain h hends =>
    have hnone (s : String) (hs : s ∈ ["_offset", "_data_V", "_V"]) :
        m.findPort? mem s = none := by
      refine List.find?_eq_none.2 fun x hx => ?_
      simp [hends x hx s hs]
    simp [offsetPort?, offsetSuffixes, hq, hnone "_offset" (by simp),
      hnone "_data_V" (by simp), hnone "_V" (by simp)]

end TakesOffset

end Module

/-! ### Binding the address -/

namespace Plan

variable {p : Plan} {c : Placement} {a : Arg} {tap : Expr} {d : Draft}

/-- Declares the bus of a memory argument. -/
def openBus (p : Plan) (c : Placement) (a : Arg) : Build Unit := do
  let width ← p.dataWidth c a
  p.declareBus a.name width

/-- Once its bus is declared, a memory argument is bound; the port that was found for its address
comes last. -/
theorem bindBus_of_offsetPort? {ending : String} {q : Port}
    (h : offsetPort? c.module a.port = some (ending, q)) {d₁ : Draft}
    (hbus : p.openBus c a d = .ok () d₁) (tap : Expr) :
    ∃ bound d', p.bindBus c a tap d = .ok bound d' ∧ bound.getLast? = some ⟨q.name, tap⟩ := by
  obtain ⟨width, d₀, hwidth, hdeclare⟩ := Build.bind_ok.1 hbus
  unfold bindBus
  simp only [bind, EStateM.bind, hwidth, hdeclare, h]
  split <;> exact ⟨_, _, rfl, List.getLast?_concat⟩

/-- A memory argument is bound only after its bus was declared. -/
theorem openBus_of_bindBus {bound : List Binding} {d' : Draft}
    (h : p.bindBus c a tap d = .ok bound d') : ∃ d₁, p.openBus c a d = .ok () d₁ := by
  obtain ⟨width, d₀, hwidth, h⟩ := Build.bind_ok.1 h
  obtain ⟨⟨⟩, d₁, hdeclare, -⟩ := Build.bind_ok.1 h
  exact ⟨d₁, Build.bind_ok.2 ⟨width, d₀, hwidth, hdeclare⟩⟩

end Plan

/-- A memory argument for whose address the child has a port is bound as soon as its bus can be
declared.  Its last binding is that of the address, and it names the port that is meant for it
exactly if no earlier port obscures that one.  So the addresses of two memories whose ports are
unobscured go to different ports. -/
theorem offset_binding_iff {p : Plan} {c : Placement} {a : Arg} {ending : String}
    (h : c.module.TakesOffset a.port ending) (tap : Expr) (d : Draft) :
    (∀ d₁, p.openBus c a d = .ok () d₁ → ∃ bound d', p.bindBus c a tap d = .ok bound d') ∧
    ∀ bound d', p.bindBus c a tap d = .ok bound d' →
      (bound.getLast? = some ⟨a.port ++ ending, tap⟩ ↔ c.module.Unobscured a.port ending) ∧
      ∀ b ending' tap' d₂ bound' d₂', c.module.TakesOffset b.port ending' → a.port ≠ b.port →
        p.bindBus c b tap' d₂ = .ok bound' d₂' →
        c.module.Unobscured a.port ending → c.module.Unobscured b.port ending' →
        bound.getLast?.map Binding.name ≠ bound'.getLast?.map Binding.name := by
  -- what the last binding is, for any memory argument of the child
  have hlast {a : Arg} {ending : String} {tap : Expr} {d : Draft} {bound : List Binding}
      {d' : Draft} (h : c.module.TakesOffset a.port ending)
      (hbound : p.bindBus c a tap d = .ok bound d') :
      ∃ q : Port, bound.getLast? = some ⟨q.name, tap⟩ ∧
        (q.name = a.port ++ ending ↔ c.module.Unobscured a.port ending) := by
    obtain ⟨q, hq, hiff⟩ := h.offsetPort?_eq
    obtain ⟨d₁, hbus⟩ := Plan.openBus_of_bindBus hbound
    obtain ⟨bound', d'', hbound', hend⟩ := Plan.bindBus_of_offsetPort? hq hbus tap
    rw [hbound] at hbound'
    cases hbound'
    exact ⟨q, hend, hiff⟩
  refine ⟨fun d₁ hbus => ?_, fun bound d' hbound => ?_⟩
  · obtain ⟨q, hq, -⟩ := h.offsetPort?_eq
    obtain ⟨bound, d', hbound, -⟩ := Plan.bindBus_of_offsetPort? hq hbus tap
    exact ⟨bound, d', hbound⟩
  · obtain ⟨q, hend, hiff⟩ := hlast h hbound
    refine ⟨?_, fun b ending' tap' d₂ bound' d₂' h' hne hbound' hfree hfree' => ?_⟩
    · rw [hend, ← hiff]
      simp
    · obtain ⟨q', hend', hiff'⟩ := hlast h' hbound'
      rw [hend, hend']
      simpa [hiff.2 hfree, hiff'.2 hfree'] using h.name_ne h' hne

/-- The ports of a bus have different names. -/
theorem nodup_busNames (arg : String) :
    (busPorts.map fun (ch, q) => busPort arg ch q.name).Nodup := by
  have hends : (busPorts.map fun x => x.1 ++ x.2.name).Nodup := by decide
  have hnames : busPorts.map (fun (ch, q) => busPort arg ch q.name) =
      (busPorts.map fun x => x.1 ++ x.2.name).map (("m_axi_" ++ arg ++ "_") ++ ·) := by
    simp [busPort, String.append_assoc]
  rw [hnames]
  exact List.Nodup.map (fun x y he => (String.append_right_inj _).1 he) hends

/-- A bus can be declared in a module that declares nothing yet. -/
theorem Plan.declareBus_empty (p : Plan) (arg : String) (width : Int) {d : Draft}
    (hd : ∀ n, d.module.declared n = false) : ∃ d', p.declareBus arg width d = .ok () d' := by
  have hnames : namesOf (busPorts.map fun x => Item.port ⟨busPort arg x.1 x.2.name, x.2.direction,
      busRange p.options.addressWidth width x.2.name⟩) =
        busPorts.map fun x => busPort arg x.1 x.2.name := by
    rw [namesOf, List.filterMap_map]
    exact congrFun (List.filterMap_eq_map (f := fun x => busPort arg x.1 x.2.name)) busPorts
  have hadd := Module.addAll_of_fresh (hnames ▸ nodup_busNames arg) fun n hn => ⟨?_, hd n⟩
  · exact ⟨_, Build.add_of_addAll hadd⟩
  · rw [hnames] at hn
    obtain ⟨x, -, rfl⟩ := List.mem_map.1 hn
    simp [busPort]

/-- An instance of a child that declares the address of `mem2` before that of `mem`. -/
def crossedChild : Placement where
  inst := ⟨{ name := "A", level := .leaf }, 0, 0, []⟩
  module := { name := "A", ports := [⟨"mem2_offset", .input, none⟩, ⟨"mem_offset", .input, none⟩] }

/-- A composite with two memories. -/
def crossedPlan : Plan where
  options := {}
  program := { top := "Top" }
  parts := {}
  task := { name := "Top", level := .composite
            ports := [⟨"x", .mmap, "int*", 32⟩, ⟨"y", .mmap, "int*", 32⟩] }
  children := []

def crossedDraft : Draft := { module := .new "Top" }

theorem openBus_crossed {a : Arg} (h : (crossedPlan.task.port? a.name).isSome = true) :
    ∃ d₁, crossedPlan.openBus crossedChild a crossedDraft = .ok () d₁ := by
  obtain ⟨q, hq⟩ := Option.isSome_iff_exists.1 h
  have hwidth : (0 < q.width) := by
    have hall : ∀ q ∈ crossedPlan.task.ports, 0 < q.width := by decide
    exact hall q (List.mem_of_find?_eq_some hq)
  obtain ⟨d', hd'⟩ := crossedPlan.declareBus_empty a.name q.width (d := crossedDraft) fun _ => rfl
  have hfound : (crossedPlan.task.port? a.name).filter (0 < ·.width) = some q := by
    simp [hq, hwidth]
  refine ⟨d', Build.bind_ok.2 ⟨q.width, crossedDraft, ?_, hd'⟩⟩
  rw [Plan.dataWidth, hfound]
  rfl

theorem offset_binding_first : ∃ bound d',
    crossedPlan.bindBus crossedChild ⟨"y", .mmap, "mem2"⟩ (.ident "y__q0") crossedDraft =
      .ok bound d' ∧ bound.getLast? = some ⟨"mem2_offset", .ident "y__q0"⟩ := by
  obtain ⟨d₁, hbus⟩ := openBus_crossed (a := ⟨"y", .mmap, "mem2"⟩) (by decide)
  have h : crossedChild.module.TakesOffset "mem2" "_offset" := .marked (by decide)
  obtain ⟨hbinds, hiff⟩ := offset_binding_iff (p := crossedPlan) (a := ⟨"y", .mmap, "mem2"⟩) h
    (.ident "y__q0") crossedDraft
  obtain ⟨bound, d', hbound⟩ := hbinds d₁ hbus
  have hfree : crossedChild.module.Unobscured "mem2" "_offset" := by decide
  exact ⟨bound, d', hbound, (hiff bound d' hbound).1.2 hfree⟩

/-- The child has a port for each of its two memories, but the addresses of both go to one. -/
theorem offsets_crossed : crossedChild.module.TakesOffset "mem" "_offset" ∧
    crossedChild.module.TakesOffset "mem2" "_offset" ∧
    (∃ bound d', crossedPlan.bindBus crossedChild ⟨"x", .mmap, "mem"⟩ (.ident "x__q0")
      crossedDraft = .ok bound d' ∧ bound.getLast? = some ⟨"mem2_offset", .ident "x__q0"⟩) ∧
    ∃ bound d', crossedPlan.bindBus crossedChild ⟨"y", .mmap, "mem2"⟩ (.ident "y__q0")
      crossedDraft = .ok bound d' ∧ bound.getLast? = some ⟨"mem2_offset", .ident "y__q0"⟩ := by
  have hfirst (port : String) (h : port ∈ ["mem", "mem2"]) :
      offsetPort? crossedChild.module port = some ("_offset", ⟨"mem2_offset", .input, none⟩) := by
    revert port
    decide
  obtain ⟨d₁, hx⟩ := openBus_crossed (a := ⟨"x", .mmap, "mem"⟩) (by decide)
  obtain ⟨d₂, hy⟩ := openBus_crossed (a := ⟨"y", .mmap, "mem2"⟩) (by decide)
  exact ⟨.marked (by decide), .marked (by decide),
    Plan.bindBus_of_offsetPort? (hfirst _ (by simp)) hx _,
    Plan.bindBus_of_offsetPort? (hfirst _ (by simp)) hy _⟩

end TaskLoom
