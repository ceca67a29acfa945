import TaskLoom.Proofs.Composite.Layout

/-!
# What a composite module holds for an instance

`Furnished level i items`: the items hold the cell of the instance `i`, its start signal, its
delayed reset, a pipeline for each of its arguments that is no stream and, unless it runs on its
own, its handshake.  An argument that is a constant drives its pipeline with its own text, and the
pipeline has the width of the constant (`Arg.Delayed`).

Main statement: a generated module holds all this for every instance of its task, among items that
have the layout of a composite (`generateTask_furnished`).
-/

namespace TaskLoom

open Build

/-- Whether an item stands in its region of a module. -/
def Module.Has (m : Module) : Item → Prop
  | .port p => p ∈ m.ports
  | .param p => p ∈ m.params
  | .signal s => s ∈ m.signals
  | .cell c => c ∈ m.cells
  | .logic l => l ∈ m.logics

theorem Module.has_push {m : Module} {i j : Item} : (m.push j).Has i ↔ m.Has i ∨ i = j := by
  cases i <;> cases j <;> simp [Module.Has]

theorem Module.has_pushAll {m : Module} {items : List Item} {i : Item} :
    (m.pushAll items).Has i ↔ m.Has i ∨ i ∈ items := by
  induction items generalizing m with
  | nil => simp [Module.pushAll]
  | cons j items ih =>
    rw [show m.pushAll (j :: items) = (m.push j).pushAll items from rfl, ih, Module.has_push,
      List.mem_cons, or_assoc]

theorem Module.has_iff_mem {name : String} {m : Module} {items : List Item}
    (h : (Module.new name).addAll items = .ok m) {i : Item} : m.Has i ↔ i ∈ items := by
  rw [Module.addAll_eq h, Module.has_pushAll, or_iff_right]
  cases i <;> simp [Module.Has]

/-- An argument of an instance as the instance sees it. -/
def argTap (level : Nat) (placed arg : String) (width : Int) : Pipeline :=
  Pipeline.make (instanceArg placed arg) level width

/-- The items hold a pipeline for an argument; a constant drives it with its text, in its own
width. -/
def Arg.Delayed (level : Nat) (placed : String) (a : Arg) (items : List Item) : Prop :=
  ∃ seed width, (argTap level placed a.name width).items seed ⊆ items ∧
    ∀ c, Literal.sized? a.name = some c → seed = .literal a.name ∧ width = c.width

theorem Arg.Delayed.mono {level : Nat} {placed : String} {a : Arg} {xs ys : List Item}
    (h : a.Delayed level placed xs) (hs : xs ⊆ ys) : a.Delayed level placed ys := by
  obtain ⟨seed, width, hitems, hconstant⟩ := h
  exact ⟨seed, width, List.Subset.trans hitems hs, hconstant⟩

namespace Plan

variable (p : Plan)

theorem reads_argSource_constant (c : Placement) (a : Arg) : (p.argSource c a).Reads fun r =>
    ∀ s, Literal.sized? a.name = some s → r = (.literal a.name, s.width) := by
  intro d r d' hr
  obtain ⟨rfl, -⟩ := p.reads_argSource c a d r d' hr
  refine ⟨rfl, fun s hs => ?_⟩
  unfold argSource at hr
  rw [hs] at hr
  cases hr
  rfl

theorem adds_delayArg (c : Placement) (a : Arg) : (p.delayArg c a).Adds fun _ xs _ =>
    a.category.isStream = false → a.Delayed p.options.registerLevel c.name xs := by
  have hdelay : Adds (do
      let s ← p.argSource c a
      let q := Pipeline.make (instanceArg c.name a.name) p.options.registerLevel s.2
      Build.pipeline q s.1
      modify fun d => { d with taps := (a.name, q) :: d.taps }
      return some (a.name, q)) fun _ xs _ => a.Delayed p.options.registerLevel c.name xs := by
    refine (p.reads_argSource_constant c a).silent.bind_adds fun s hs => ?_
    refine Adds.mono (Adds.bind (adds_pipeline _ _) fun _ => Silent.bind (silent_modify fun _ => rfl)
      fun _ _ => Silent.pure (R := fun _ => True) trivial) ?_
    rintro m _ r ⟨_, _, _, _, rfl, -, rfl, rfl, -⟩
    refine ⟨s.1, s.2, List.subset_append_left _ _, fun c' hc' => ?_⟩
    rw [hs c' hc']
    exact ⟨rfl, rfl⟩
  have hrest : Adds (do
      if a.category.isStream then return none
      let s ← p.argSource c a
      let q := Pipeline.make (instanceArg c.name a.name) p.options.registerLevel s.2
      Build.pipeline q s.1
      modify fun d => { d with taps := (a.name, q) :: d.taps }
      return some (a.name, q)) fun _ xs _ =>
        a.category.isStream = false → a.Delayed p.options.registerLevel c.name xs := by
    refine .ite (fun h => .pure fun _ hn => ?_) fun _ => hdelay.mono fun _ _ _ h _ => h
    rw [h] at hn
    cases hn
  unfold delayArg
  refine .ite (fun _ => ?_) fun _ => hrest
  exact Silent.bind_adds (R := fun _ => True) .throw fun _ _ => hrest

theorem adds_delayArgs (c : Placement) (as : List Arg) : (p.delayArgs c as).Adds fun _ xs _ =>
    ∀ a ∈ as, a.category.isStream = false → a.Delayed p.options.registerLevel c.name xs := by
  induction as with
  | nil => exact .pure (by simp)
  | cons a as ih =>
    refine (Adds.bind (p.adds_delayArg c a) fun _ => Adds.bind ih fun _ =>
      Silent.pure (R := fun _ => True) trivial).mono ?_
    rintro m _ _ ⟨xs, _, _, _, rfl, -, hfirst, ys, _, _, _, rfl, -, hrest, rfl, -⟩ b hb hstream
    rcases List.mem_cons.1 hb with rfl | hb
    · exact (hfirst hstream).mono (by simp)
    · exact (hrest b hb hstream).mono (by simp)

end Plan

/-- What a composite holds for one of its instances. -/
structure Furnished (level : Nat) (i : Instance) (items : List Item) : Prop where
  reset : (resetTap level i.name).items (.ident resetPort) ⊆ items
  args : ∀ a ∈ i.args, a.category.isStream = false → a.Delayed level i.name items
  start : .signal ⟨instanceStart i.name, .wire, none, []⟩ ∈ items
  handshake : i.isAutorun = false → handshakeItems level i.name ⊆ items
  cell : ∃ c, .cell c ∈ items ∧ c.name = i.name

theorem Furnished.mono {level : Nat} {i : Instance} {xs ys : List Item}
    (h : Furnished level i xs) (hs : xs ⊆ ys) : Furnished level i ys where
  reset := List.Subset.trans h.reset hs
  args a ha hstream := (h.args a ha hstream).mono hs
  start := hs h.start
  handshake hauto := List.Subset.trans (h.handshake hauto) hs
  cell := by
    obtain ⟨c, hc, hname⟩ := h.cell
    exact ⟨c, hs hc, hname⟩

theorem start_mem_handshakeItems (level : Nat) (placed : String) :
    .signal ⟨instanceStart placed, .wire, none, []⟩ ∈ handshakeItems level placed :=
  List.mem_append_left _ (List.mem_map_of_mem (by simp [handshakeSignals]))

theorem adds_startChild (level : Nat) (c : Placement) : (startChild level c).Adds fun _ xs _ =>
    .signal ⟨instanceStart c.name, .wire, none, []⟩ ∈ xs ∧
      (c.inst.isAutorun = false → handshakeItems level c.name ⊆ xs) := by
  refine .ite (fun hauto => ?_) fun hauto => ?_
  · refine (Adds.bind (adds_add _) fun _ => Silent.pure (R := fun _ => True) trivial).mono ?_
    rintro m _ _ ⟨_, _, _, _, rfl, -, rfl, rfl, -⟩
    exact ⟨by simp, by simp [hauto]⟩
  · rw [map_eq_pure_bind]
    refine Adds.mono (Wires.bind (wires_addHandshake level c) fun q => Wires.pure
      (P := fun xs _ => xs = []) rfl) ?_
    rintro m _ _ ⟨-, _, _, _, rfl, ⟨rfl, -⟩, rfl⟩
    exact ⟨by simp [start_mem_handshakeItems], by simp⟩

namespace Plan

variable (p : Plan)

theorem adds_addCell (c : Placement) (taps : List (String × Pipeline)) :
    (p.addCell c taps).Adds fun _ xs _ => ∃ cell, .cell cell ∈ xs ∧ cell.name = c.name := by
  refine (Adds.bind (p.declares_bindArgs c taps _) fun _ => adds_add _).mono ?_
  rintro m _ _ ⟨_, _, _, _, rfl, -, -, rfl⟩
  exact ⟨_, List.mem_append_right _ (List.mem_singleton_self _), rfl⟩

theorem adds_addChild (c : Placement) : (p.addChild c).Adds fun _ xs _ =>
    Furnished p.options.registerLevel c.inst xs := by
  rw [p.addChild_eq c]
  refine (Adds.bind (adds_pipeline _ _) fun _ => Adds.bind (p.adds_delayArgs c _) fun taps =>
    Adds.bind (adds_startChild _ c) fun _ => Adds.bind (p.adds_addCell c taps) fun _ =>
    Silent.pure (R := fun _ => True) trivial).mono ?_
  rintro m _ _ ⟨_, _, _, _, rfl, -, rfl, args, _, _, _, rfl, -, hargs, control, _, _, _, rfl, -,
    ⟨hstart, hhandshake⟩, cell, _, _, _, rfl, -, ⟨k, hk, hname⟩, rfl, -⟩
  refine ⟨List.subset_append_left _ _, fun a ha hstream => ?_, ?_, fun hauto => ?_, k, ?_, hname⟩
  · exact (hargs a ha hstream).mono fun i hi => by simp [hi]
  · exact List.mem_append_right _ (List.mem_append_right _ (List.mem_append_left _ hstart))
  · exact fun i hi => by simp [hhandshake hauto hi]
  · simp [hk]

theorem adds_addChildren (cs : List Placement) : (p.addChildren cs).Adds fun _ xs _ =>
    ∀ c ∈ cs, Furnished p.options.registerLevel c.inst xs := by
  induction cs with
  | nil => exact .pure (by simp)
  | cons c cs ih =>
    refine (Adds.bind (p.adds_addChild c) fun _ => Adds.bind ih fun _ =>
      Silent.pure (R := fun _ => True) trivial).mono ?_
    rintro m _ _ ⟨xs, _, _, _, rfl, -, hfirst, ys, _, _, _, rfl, -, hrest, rfl, -⟩ c' hc'
    rcases List.mem_cons.1 hc' with rfl | hc'
    · exact hfirst.mono (by simp)
    · exact (hrest c' hc').mono (by simp)

theorem adds_body : p.body.Adds fun _ xs _ =>
    ∀ c ∈ p.children, Furnished p.options.registerLevel c.inst xs := by
  refine Adds.mono (Adds.bind (adds_pipeline _ _) fun _ => Adds.bind (adds_pipeline _ _) fun _ =>
    Adds.bind (Wires.forM _ fun f _ => p.wires_addStream f) fun _ =>
    Adds.bind (p.adds_addChildren _) fun _ => Adds.bind p.declares_addAdapters fun _ =>
    Silent.pure (R := fun _ => True) trivial) ?_
  rintro m _ _ ⟨_, _, _, _, rfl, -, -, _, _, _, _, rfl, -, -, _, _, _, _, rfl, -, -, xs, _, _, _,
    rfl, -, hxs, _, _, _, _, rfl, -, -, rfl, -⟩ c hc
  exact (hxs c hc).mono fun i hi => by simp [hi]

theorem adds_build : p.build.Adds fun _ xs _ =>
    ∀ c ∈ p.children, Furnished p.options.registerLevel c.inst xs := by
  rw [p.build_eq]
  refine Adds.mono (Adds.bind p.adds_declareInterface fun _ => Adds.bind (adds_add _) fun _ =>
    Adds.bind p.adds_body fun _ => Adds.bind (adds_add _) fun _ => silent_note _ _ _ _) ?_
  rintro m _ _ ⟨_, _, _, _, rfl, -, -, _, _, _, _, rfl, -, -, xs, _, _, _, rfl, -, hxs, _, _, _, _,
    rfl, -, -, rfl, -⟩ c hc
  exact (hxs c hc).mono fun i hi => by simp [hi]

end Plan

/-- A generated module has the layout of a composite, and it holds what each instance of its task
needs. -/
theorem generateTask_furnished {o : Options} {program : Program} {parts : Parts} {t : Task}
    {m : Module} (h : (generateTask o program parts t).2 = .ok m) :
    ∃ insts items, program.instances t = .ok insts ∧
      (Module.new t.name).addAll items = .ok m ∧
      Layout o.registerLevel (waitedNames insts) items ∧
      ∀ i ∈ insts, Furnished o.registerLevel i items := by
  obtain ⟨insts, items, hinsts, hitems, hlayout⟩ := generateTask_layout h
  refine ⟨insts, items, hinsts, hitems, hlayout, fun i hi => ?_⟩
  unfold generateTask at h
  split at h
  · cases h
  · rename_i p hp
    split at h
    · rename_i d hd
      cases h
      obtain ⟨xs, hxs, hall⟩ := p.adds_build _ _ _ hd
      obtain ⟨insts', cs, hinsts', hcs, rfl⟩ := plan_ok hp
      obtain rfl := Except.ok.inj (hinsts.symm.trans hinsts')
      rw [← inst_placements hcs] at hi
      obtain ⟨c, hc, rfl⟩ := List.mem_map.1 hi
      exact (hall c hc).mono fun x hx => (Module.has_iff_mem hitems).1 ((Module.has_iff_mem hxs).2 hx)
    · cases h

end TaskLoom
