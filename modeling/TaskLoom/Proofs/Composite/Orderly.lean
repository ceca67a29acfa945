import TaskLoom.Proofs.Composite.Lookup
import TaskLoom.Proofs.Composite.ScopedSteps
import TaskLoom.Proofs.Simulation.Reordering

/-!
# Assignments that read what was declared before

`Module.drivers level m` are the assignments of a composite under construction, together with those
of the status ports, which are written last.  The module is `Orderly level`: all these assignments
have different, declared targets, read declared names only, and have no cycle.

Whatever is added to the module keeps it orderly, if it drives new wires, or ports that nobody
drives or reads so far, and reads nothing that is driven along with it (`Orderly.append`).  The
search for the source of an argument may come up with any declared name at all; but what it drives
is new, and so the instances keep the module orderly (`keeps_addChildren`).
-/

namespace TaskLoom

open Build

namespace Module

variable {m m' : Module} {items : List Item}

theorem declared_of_carries (ht : m.Tallied) {n : String} (h : m.carries n = true) :
    m.declared n = true := by
  simp only [carries, Bool.or_eq_true, List.any_eq_true, beq_iff_eq] at h
  rcases h with ⟨p, hp, rfl⟩ | ⟨s, hs, rfl⟩
  · exact ht.declared_iff.2 (mem_names_of_port hp)
  · exact ht.declared_iff.2 (mem_names_of_signal hs)

theorem carries_of_port {n : String} (h : n ∈ portNames m) : m.carries n = true := by
  obtain ⟨p, hp, rfl⟩ := List.mem_map.1 h
  simp only [carries, Bool.or_eq_true, List.any_eq_true, beq_iff_eq]
  exact .inl ⟨p, hp, rfl⟩

theorem carries_addAll (h : m.addAll items = .ok m') {n : String} (hn : m.carries n = true) :
    m'.carries n = true := by
  simp only [carries, addAll_eq h, ports_pushAll, signals_pushAll, List.any_append,
    Bool.or_eq_true] at hn ⊢
  exact hn.imp .inl .inl

theorem carries_of_wire (h : m.addAll items = .ok m') {n : String} (hn : n ∈ wiresOf items) :
    m'.carries n = true := by
  obtain ⟨s, hs, -, rfl⟩ := mem_wiresOf.1 hn
  simp only [carries, addAll_eq h, signals_pushAll, Bool.or_eq_true, List.any_eq_true, beq_iff_eq]
  exact .inr ⟨s, by simp [hs], rfl⟩

theorem assignsOf_addAll (h : m.addAll items = .ok m') :
    Circuit.assignsOf m'.logics = Circuit.assignsOf m.logics ++ assignsIn items := by
  rw [addAll_eq h, logics_pushAll, Circuit.assignsOf, List.filterMap_append]
  rfl

end Module

theorem wiresOf_subset {items : List Item} : wiresOf items ⊆ namesOf items := by
  intro n hn
  obtain ⟨s, hs, -, rfl⟩ := mem_wiresOf.1 hn
  exact name_mem_of_signal hs

/-- A register is no wire. -/
theorem register_ne_wire {items : List Item} (hnd : (namesOf items).Nodup) {r w : String}
    (hr : r ∈ registersOf items) (hw : w ∈ wiresOf items) : r ≠ w := by
  rintro rfl
  obtain ⟨s, hs, hkind, rfl⟩ := mem_registersOf.1 hr
  obtain ⟨s', hs', hkind', he⟩ := mem_wiresOf.1 hw
  exact hkind' (signal_unique hnd hs' hs he ▸ hkind)

/-- The assignments of the status ports. -/
def statusAssigns (level : Nat) : List (String × Expr) := Circuit.assignsOf (controlLogic level [])

/-- The assignments of a composite under construction and those of its status ports. -/
def Module.drivers (level : Nat) (m : Module) : List (String × Expr) :=
  statusAssigns level ++ Circuit.assignsOf m.logics

theorem Module.drivers_addAll {level : Nat} {m m' : Module} {items : List Item}
    (h : m.addAll items = .ok m') : m'.drivers level = m.drivers level ++ assignsIn items := by
  rw [drivers, assignsOf_addAll h, ← List.append_assoc]
  rfl

/-- What the instances need of the control. -/
def controlInputs (level : Nat) : List String :=
  [resetPort, (startPipeline level).first, (donePipeline level).first]

structure Orderly (level : Nat) (m : Module) : Prop where
  distinct : ((m.drivers level).map Prod.fst).Nodup
  targets : ∀ a ∈ m.drivers level, m.carries a.1 = true
  reads : ∀ a ∈ m.drivers level, ∀ x ∈ a.2.names, m.declared x = true
  acyclic : NoCycle (m.drivers level)
  inputs : ∀ x ∈ controlInputs level, m.declared x = true
  tallied : m.Tallied

/-- Items that drive wires of their own, or free ports, and read what they do not drive. -/
structure Rooted (level : Nat) (m : Module) (items : List Item) : Prop where
  distinct : ((assignsIn items).map Prod.fst).Nodup
  targets : ∀ b ∈ assignsIn items, b.1 ∈ wiresOf items ∨
    (b.1 ∈ portNames m ∧ ∀ a ∈ m.drivers level, a.1 ≠ b.1 ∧ b.1 ∉ a.2.names)
  reads : ∀ b ∈ assignsIn items, ∀ x ∈ b.2.names,
    (m.declared x = true ∨ x ∈ namesOf items) ∧ x ∉ (assignsIn items).map Prod.fst

namespace Orderly

variable {level : Nat} {m m' : Module} {items : List Item}

/-- The step lemma. -/
theorem append (h : Orderly level m) (hm : m.addAll items = .ok m') (hr : Rooted level m items) :
    Orderly level m' := by
  obtain ⟨hnd, hfresh⟩ := Module.nodup_of_addAll hm
  have hdrivers : m'.drivers level = m.drivers level ++ assignsIn items :=
    Module.drivers_addAll hm
  have hgrow {n : String} (hn : m.declared n = true) : m'.declared n = true :=
    (Module.declared_addAll hm).2 (.inl hn)
  -- what is driven now was neither driven nor read before
  have hfree : ∀ b ∈ assignsIn items, ∀ a ∈ m.drivers level, a.1 ≠ b.1 ∧ b.1 ∉ a.2.names := by
    intro b hb a ha
    rcases hr.targets b hb with hwire | hport
    · have hnew := hfresh _ (wiresOf_subset hwire)
      refine ⟨fun he => ?_, fun hread => ?_⟩
      · rw [← he, Module.declared_of_carries h.tallied (h.targets a ha)] at hnew
        cases hnew
      · rw [h.reads a ha _ hread] at hnew
        cases hnew
    · exact hport.2 a ha
  refine ⟨?_, ?_, ?_, ?_, fun x hx => hgrow (h.inputs x hx),
    Module.addAll_eq hm ▸ h.tallied.pushAll items⟩
  · rw [hdrivers, List.map_append, List.nodup_append]
    refine ⟨h.distinct, hr.distinct, fun x hx y hy he => ?_⟩
    obtain ⟨a, ha, rfl⟩ := List.mem_map.1 hx
    obtain ⟨b, hb, rfl⟩ := List.mem_map.1 hy
    exact (hfree b hb a ha).1 he
  · intro a ha
    rw [hdrivers, List.mem_append] at ha
    rcases ha with ha | ha
    · exact Module.carries_addAll hm (h.targets a ha)
    · rcases hr.targets a ha with hwire | hport
      · exact Module.carries_of_wire hm hwire
      · exact Module.carries_addAll hm (Module.carries_of_port hport.1)
  · intro a ha x hx
    rw [hdrivers, List.mem_append] at ha
    rcases ha with ha | ha
    · exact hgrow (h.reads a ha x hx)
    · exact (Module.declared_addAll hm).2 (hr.reads a ha x hx).1
  · rw [hdrivers]
    refine h.acyclic.append fun a ha x hx hmem => ?_
    rw [List.mem_append] at ha
    rcases ha with ha | ha
    · obtain ⟨b, hb, rfl⟩ := List.mem_map.1 hmem
      exact (hfree b hb a ha).2 hx
    · exact (hr.reads a ha x hx).2 hmem

end Orderly

/-- Items that read what was declared before them and their own registers. -/
theorem Rooted.of_wires {level : Nat} {m m' : Module} {items : List Item}
    (hm : m.addAll items = .ok m') (hdistinct : ((assignsIn items).map Prod.fst).Nodup)
    (htargets : ∀ b ∈ assignsIn items, b.1 ∈ wiresOf items)
    (hreads : ∀ b ∈ assignsIn items, ∀ x ∈ b.2.names,
      m.declared x = true ∨ x ∈ registersOf items) : Rooted level m items := by
  obtain ⟨hnd, hfresh⟩ := Module.nodup_of_addAll hm
  refine ⟨hdistinct, fun b hb => .inl (htargets b hb), fun b hb x hx => ⟨?_, fun hmem => ?_⟩⟩
  · exact (hreads b hb x hx).imp id fun hr => registersOf_subset hr
  · obtain ⟨b', hb', rfl⟩ := List.mem_map.1 hmem
    have hwire := htargets b' hb'
    rcases hreads b hb _ hx with hdeclared | hregister
    · rw [hfresh _ (wiresOf_subset hwire)] at hdeclared
      cases hdeclared
    · exact register_ne_wire hnd hregister hwire rfl

/-! ### Steps that keep a module in order -/

namespace Build

variable {α β : Type}

/-- If the step succeeds, `I` holds of the module after it if it did before. -/
def Keeps (b : Build α) (I : Module → Prop) : Prop :=
  ∀ d a d', b d = .ok a d' → I d.module → I d'.module

namespace Keeps

variable {I : Module → Prop} {b : Build α} {f : α → Build β}

theorem pure {a : α} : Keeps (Pure.pure a) I := by
  intro d a' d' hr hi
  cases hr
  exact hi

theorem throw {e : WiringError} : Keeps (MonadExcept.throw e : Build α) I := by
  intro d a d' hr
  cases hr

theorem bind (h : b.Keeps I) (hf : ∀ a, (f a).Keeps I) : (b >>= f).Keeps I := by
  intro d c d' hr hi
  obtain ⟨a, d₁, hb, hr⟩ := bind_ok.1 hr
  exact hf a d₁ c d' hr (h d a d₁ hb hi)

theorem ite {p : Prop} [Decidable p] {b' : Build α} (h : p → b.Keeps I) (h' : ¬ p → b'.Keeps I) :
    (if p then b else b').Keeps I := by
  split
  · exact h ‹_›
  · exact h' ‹_›

theorem of_adds {P : Module → List Item → α → Prop} (h : b.Adds P)
    (hI : ∀ m items a m', P m items a → m.addAll items = .ok m' → I m → I m') : b.Keeps I := by
  intro d a d' hr hi
  obtain ⟨items, hitems, hp⟩ := h d a d' hr
  exact hI _ items a _ hp hitems hi

end Keeps

end Build

section
variable {level : Nat}

/-- Declarations alone keep the module orderly. -/
theorem keeps_declares {α : Type} {b : Build α} (h : b.Declares) : b.Keeps (Orderly level) :=
  .of_adds h fun _ items _ _ hnone hm hi => by
    have hassigns : assignsIn items = [] := by rw [assignsIn, hnone]; rfl
    exact hi.append hm (.of_wires hm (by simp [hassigns]) (by simp [hassigns]) (by simp [hassigns]))

theorem assignsIn_pipeline (t : Pipeline) (seed : Expr) :
    assignsIn (t.items seed) = [(t.first, seed)] := by
  rw [Pipeline.items, assignsIn_append, assignsIn_signals, assignsIn_logics,
    Pipeline.assignsOf_logic]
  rfl

theorem first_mem_wiresOf_items (t : Pipeline) (seed : Expr) :
    t.first ∈ wiresOf (t.items seed) := by
  rw [Pipeline.items, wiresOf_append]
  exact List.mem_append_left _ t.first_mem_wires

/-- A pipeline may start at anything that is declared. -/
theorem Orderly.pipeline {m m' : Module} {t : Pipeline} {seed : Expr} (h : Orderly level m)
    (hseed : ∀ x ∈ seed.names, m.declared x = true) (hm : m.addAll (t.items seed) = .ok m') :
    Orderly level m' := by
  refine h.append hm (.of_wires hm ?_ ?_ ?_) <;> rw [assignsIn_pipeline]
  · exact List.nodup_singleton _
  · simpa using first_mem_wiresOf_items t seed
  · simpa using fun x hx => .inl (hseed x hx)

theorem keeps_pipeline {t : Pipeline} {seed : Expr}
    (hseed : ∀ m, Orderly level m → ∀ x ∈ seed.names, m.declared x = true) :
    (Build.pipeline t seed).Keeps (Orderly level) :=
  .of_adds (adds_pipeline t seed) fun _ _ _ _ he hm hi =>
    hi.pipeline (hseed _ hi) (he ▸ hm)

/-- Whatever the source of an argument is, it is declared. -/
theorem keeps_delayArg (p : Plan) (c : Placement) (a : Arg) :
    (p.delayArg c a).Keeps (Orderly level) := by
  have hdelay : Keeps (do
      let s ← p.argSource c a
      let q := Pipeline.make (instanceArg c.name a.name) p.options.registerLevel s.2
      Build.pipeline q s.1
      modify fun d => { d with taps := (a.name, q) :: d.taps }
      return some (a.name, q)) (Orderly level) := by
    intro d tap d' hr hi
    obtain ⟨s, d₁, hs, hr₁⟩ := bind_ok.1 hr
    obtain ⟨rfl, -⟩ := p.reads_argSource c a _ _ _ hs
    obtain ⟨⟨⟩, d₂, hpipeline, hr₂⟩ := bind_ok.1 hr₁
    obtain ⟨m', hm', rfl⟩ := add_ok hpipeline
    cases hr₂
    exact hi.pipeline (fun x hx => (Plan.names_argSource hs x hx).2.2) hm'
  unfold Plan.delayArg
  refine .ite (fun _ => .bind .throw fun _ => ?_) fun _ => ?_
  all_goals exact .ite (fun _ => .pure) fun _ => hdelay

theorem keeps_delayArgs (p : Plan) (c : Placement) (as : List Arg) :
    (p.delayArgs c as).Keeps (Orderly level) := by
  induction as with
  | nil => exact .pure
  | cons a as ih => exact .bind (keeps_delayArg p c a) fun _ => .bind ih fun _ => .pure

theorem Orderly.startAlways {m m' : Module} (h : Orderly level m) {placed : String}
    (hm : m.addAll [.signal ⟨instanceStart placed, .wire, none, []⟩,
      .logic (.assign (instanceStart placed) .yes)] = .ok m') : Orderly level m' := by
  refine h.append hm (.of_wires hm ?_ ?_ ?_)
  · exact List.nodup_singleton _
  · simp [assignsIn, logicsOf, Item.logic?, Circuit.assignsOf, wiresOf, signalsOf, Item.signal?]
  · simp [assignsIn, logicsOf, Item.logic?, Circuit.assignsOf, Expr.names]

/-- The assignments of a handshake. -/
theorem assignsIn_handshakeItems (level : Nat) (placed : String) :
    assignsIn (handshakeItems level placed) =
      [((startTap level placed).first, .ident (startPipeline level).first),
       ((isDoneTap level placed).first, .equals (.ident (instanceState placed)) state10),
       ((doneTap level placed).first, .ident (donePipeline level).first),
       (instanceStart placed, .equals (.ident (instanceState placed)) state01)] := by
  simp only [handshakeItems, tapItems, assignsIn_append, assignsIn_signals, assignsIn_logics,
    assignsIn_pipeline]
  rfl

theorem nodup_handshakeItems (level : Nat) (placed : String) :
    ((assignsIn (handshakeItems level placed)).map Prod.fst).Nodup := by
  have hfirst (role : String) : (Pipeline.make (ownSignal placed role) level 1).first =
      placed ++ ("__" ++ role ++ "__q0") := by
    simp only [Pipeline.first, Pipeline.stageName, Pipeline.make, ownSignal, String.append_assoc]
    rfl
  have hstart : instanceStart placed = placed ++ ("__" ++ startPort) := String.append_assoc
  rw [assignsIn_handshakeItems, startTap, isDoneTap, doneTap, instanceStartGlobal, instanceIsDone,
    instanceDoneGlobal, hfirst, hfirst, hfirst, hstart]
  simp only [List.map_cons, List.map_nil, List.nodup_cons, List.mem_cons, String.append_right_inj,
    List.not_mem_nil]
  decide

theorem wires_handshakeItems (level : Nat) (placed : String) :
    ∀ b ∈ assignsIn (handshakeItems level placed),
      b.1 ∈ wiresOf (handshakeItems level placed) := by
  have htap (t : Pipeline) (seed : Expr) (h : t.items seed ⊆ tapItems level placed) :
      t.first ∈ wiresOf (handshakeItems level placed) := by
    obtain ⟨s, hs, hkind, hname⟩ := mem_wiresOf.1 (first_mem_wiresOf_items t seed)
    exact mem_wiresOf.2 ⟨s, by simp [handshakeItems, h hs], hkind, hname⟩
  rw [assignsIn_handshakeItems]
  simp only [List.mem_cons, List.not_mem_nil, or_false]
  rintro b (rfl | rfl | rfl | rfl)
  · exact htap _ _ fun i hi => List.mem_append_left _ hi
  · exact htap _ _ fun i hi => List.mem_append_right _ (List.mem_append_left _ hi)
  · exact htap _ _ fun i hi => List.mem_append_right _ (List.mem_append_right _ hi)
  · exact mem_wiresOf.2 ⟨⟨instanceStart placed, .wire, none, []⟩,
      by simp [handshakeItems, handshakeSignals], by simp, rfl⟩

theorem keeps_addHandshake (c : Placement) :
    (addHandshake level c (resetTap level c.name)).Keeps (Orderly level) := by
  refine .of_adds (wires_addHandshake level c) ?_
  rintro m _ _ m' ⟨-, rfl, -⟩ hm hi
  have hstate : instanceState c.name ∈ registersOf (handshakeItems level c.name) :=
    mem_registersOf.2 ⟨⟨instanceState c.name, .reg, BitRange.bits 2, []⟩,
      by simp [handshakeItems, handshakeSignals], rfl, rfl⟩
  refine hi.append hm (.of_wires hm (nodup_handshakeItems level c.name)
    (wires_handshakeItems level c.name) ?_)
  rw [assignsIn_handshakeItems]
  simp only [List.mem_cons, List.not_mem_nil, or_false]
  rintro b (rfl | rfl | rfl | rfl) x hx <;>
    simp only [Expr.names, stateCode, List.append_nil, List.mem_singleton] at hx <;> subst hx
  · exact .inl (hi.inputs _ (by simp [controlInputs]))
  · exact .inr hstate
  · exact .inl (hi.inputs _ (by simp [controlInputs]))
  · exact .inr hstate

theorem keeps_startChild (c : Placement) : (startChild level c).Keeps (Orderly level) := by
  refine .ite (fun _ => .bind ?_ fun _ => .pure) fun _ => ?_
  · exact .of_adds (adds_add _) fun _ _ _ _ he hm hi => hi.startAlways (he ▸ hm)
  · rw [map_eq_pure_bind]
    exact .bind (keeps_addHandshake c) fun _ => .pure

theorem keeps_addChild (p : Plan) (c : Placement) :
    (p.addChild c).Keeps (Orderly p.options.registerLevel) := by
  rw [p.addChild_eq c]
  refine .bind (keeps_pipeline fun m hi x hx => ?_) fun _ => ?_
  · rw [List.mem_singleton.1 hx]
    exact hi.inputs _ (.head _)
  · refine .bind (keeps_delayArgs p c _) fun taps => .bind (keeps_startChild c) fun _ => ?_
    exact .bind (keeps_declares (p.declares_addCell c taps)) fun _ => .pure

theorem keeps_addChildren (p : Plan) (cs : List Placement) :
    (p.addChildren cs).Keeps (Orderly p.options.registerLevel) := by
  induction cs with
  | nil => exact .pure
  | cons c cs ih => exact .bind (keeps_addChild p c) fun _ => .bind ih fun _ => .pure

end

end TaskLoom
