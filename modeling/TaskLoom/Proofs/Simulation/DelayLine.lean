import TaskLoom.Proofs.Hdl.Additions
import TaskLoom.Proofs.Simulation.Delay
import TaskLoom.Proofs.Simulation.FixedPoint

/-!
# Pipelines among other logic

A pipeline in a module delays its first stage, whatever else the module holds and however the
simulation is driven, as long as nobody else writes its registers.  The rest of the module needs no
discipline here: its assignments may close cycles and its blocks may share targets.

`Circuit.Delays c p seed`: what a circuit with the pipeline `p` has, seen from the pipeline.
`Simulator.Delayed c p past s`: the registers of `p` hold in `s` what its first stage had just
before the edges `past`.  Every call keeps this (`Delayed.call`), hence every sequence of calls
(`Delayed.after`).

Main statement: `pipeline_delays`.
-/

namespace TaskLoom

/-- The names that logic may assign. -/
def Logic.targets : Logic → List String
  | .assign target _ => [target]
  | .clocked body _ => Stmt.allTargets body

theorem not_mem_assignsOf {ls : List Logic} {r : String} (h : ∀ l ∈ ls, r ∉ l.targets) :
    ∀ a ∈ Circuit.assignsOf ls, a.1 ≠ r := by
  rintro a ha rfl
  obtain ⟨l, hl, hla⟩ := List.mem_filterMap.1 ha
  cases l with
  | assign target value =>
    cases hla
    exact h _ hl (by simp [Logic.targets])
  | clocked body simulationOnly => cases hla

theorem not_mem_blocksOf {ls : List Logic} {r : String} (h : ∀ l ∈ ls, r ∉ l.targets) :
    ∀ b ∈ Circuit.blocksOf ls, r ∉ Stmt.allTargets b := by
  intro b hb
  obtain ⟨l, hl, hlb⟩ := List.mem_filterMap.1 hb
  cases l with
  | assign target value => cases hlb
  | clocked body simulationOnly =>
    cases simulationOnly
    · cases hlb
      exact h _ hl
    · cases hlb

/-- What a circuit with a pipeline has, seen from the pipeline. -/
structure Circuit.Delays (c : Circuit) (p : Pipeline) (seed : Expr) : Prop where
  seed : (p.first, seed) ∈ c.assigns
  undriven : ∀ i < p.level, c.isDriven (p.stageName (i + 1)) = false
  shifts : ∀ ρ, ∀ i < p.level,
    lastWrite (p.stageName (i + 1)) (c.blocks.flatMap (Stmt.allWrites ρ)) =
      some (ρ.value (p.stageName i))
  width : ∀ i ≤ p.level, c.width (p.stageName i) = BitRange.simulatedWidth p.range

/-- A signal that was added has its own width. -/
theorem Circuit.width_of_added {m m' : Module} {items : List Item} {c : Circuit}
    (h : m.addAll items = .ok m') (hc : Circuit.ofModule m' = .ok c) {s : Signal}
    (hs : .signal s ∈ items) : c.width s.name = BitRange.simulatedWidth s.range := by
  have hnd := (Module.nodup_of_addAll h).1
  have hsignals : m'.signals = m.signals ++ signalsOf items := by
    rw [Module.addAll_eq h, Module.signals_pushAll]
  obtain rfl := Circuit.ofModule_eq hc
  -- what was declared before does not matter, since the width that is given last counts
  rw [Circuit.width, Circuit.widthsOf, hsignals, List.foldl_append]
  refine getD_foldl_insert Signal.name _ _ _ (fun s' hs' he => ?_)
    (.inl ⟨s, mem_signalsOf.2 hs, rfl⟩)
  rw [signal_unique hnd (mem_signalsOf.1 hs') hs he]

/-- Calls one after the other, as one addition of the items that they added. -/
theorem Module.exists_items (m : Module) (as : List Addition) :
    ∃ items, m.addAll items = .ok (m.growAll as) := by
  induction as generalizing m with
  | nil => exact ⟨[], rfl⟩
  | cons a as ih =>
    have hone : ∃ items, m.addAll items = .ok (m.grow a).1 := by
      rcases m.addUntil_cases a.items with ⟨hgrow, hadmits⟩ |
        ⟨before, i, after, e, -, hgrow, hadmits, -⟩
      all_goals
        rw [grow, hgrow]
        exact ⟨_, hadmits.addAll⟩
    obtain ⟨xs, hxs⟩ := hone
    obtain ⟨ys, hys⟩ := ih (m.grow a).1
    exact ⟨xs ++ ys, addAll_append.2 ⟨_, hxs, hys⟩⟩

section
variable {m₀ m₁ : Module} {p : Pipeline} {seed : Expr} {as : List Addition} {later : List Logic}
  {c : Circuit}

theorem Pipeline.signal_of_stage (p : Pipeline) {i : Nat} (hi : i ≤ p.level) :
    ∃ s ∈ p.signals, s.name = p.stageName i ∧ s.range = p.range := by
  cases i with
  | zero => exact ⟨_, List.mem_cons_self, rfl, rfl⟩
  | succ i =>
    exact ⟨_, List.mem_cons_of_mem _ (List.mem_map.2 ⟨i, List.mem_range.2 hi, rfl⟩), rfl, rfl⟩

/-- A pipeline that was added to a module, with other logic that writes none of its registers. -/
theorem Circuit.delays_of_grow (hadd : m₀.grow (.pipeline p seed) = (m₁, none))
    (hlater : (m₁.growAll as).logics = m₁.logics ++ later)
    (hother : ∀ l ∈ m₀.logics ++ later, ∀ i < p.level, p.stageName (i + 1) ∉ l.targets)
    (hc : Circuit.ofModule (m₁.growAll as) = .ok c) : c.Delays p seed := by
  have hadd' : m₀.addAll (p.items seed) = .ok m₁ := by
    have hadd : m₀.addUntil (p.items seed) = (m₁, none) := hadd
    rw [Module.addAll, hadd]
  obtain ⟨items, hitems⟩ := m₁.exists_items as
  have hall : m₀.addAll (p.items seed ++ items) = .ok (m₁.growAll as) :=
    Module.addAll_append.2 ⟨m₁, hadd', hitems⟩
  have hlogics : (m₁.growAll as).logics = m₀.logics ++ p.logic seed ++ later := by
    rw [hlater, Module.addAll_eq hadd', Module.logics_pushAll]
    simp [Pipeline.items]
  have hbefore : ∀ i < p.level, ∀ l ∈ m₀.logics, p.stageName (i + 1) ∉ l.targets :=
    fun i hi l hl => hother l (List.mem_append_left _ hl) i hi
  have hafter : ∀ i < p.level, ∀ l ∈ later, p.stageName (i + 1) ∉ l.targets :=
    fun i hi l hl => hother l (List.mem_append_right _ hl) i hi
  have hassigns : c.assigns = Circuit.assignsOf m₀.logics ++ [(p.first, seed)] ++
      Circuit.assignsOf later := by
    rw [Circuit.ofModule_eq hc, hlogics, ← p.assignsOf_logic seed]
    simp [Circuit.assignsOf, List.filterMap_append]
  have hblocks : c.blocks = Circuit.blocksOf m₀.logics ++
      (if p.level = 0 then [] else [p.shift]) ++ Circuit.blocksOf later := by
    rw [Circuit.ofModule_eq hc, hlogics, ← p.blocksOf_logic seed]
    simp [Circuit.blocksOf, List.filterMap_append]
  refine ⟨by simp [hassigns], fun i hi => ?_, fun ρ i hi => ?_, fun i hi => ?_⟩
  · rw [Circuit.isDriven, List.any_eq_false]
    intro a ha he
    have he : a.1 = p.stageName (i + 1) := by simpa using he
    rw [hassigns, List.mem_append, List.mem_append, List.mem_singleton] at ha
    rcases ha with (ha | rfl) | ha
    · exact not_mem_assignsOf (hbefore i hi) a ha he
    · have hi : 0 = i + 1 := p.stageName_inj he
      omega
    · exact not_mem_assignsOf (hafter i hi) a ha he
  · rw [hblocks, if_neg (by omega), List.flatMap_append, List.flatMap_append, lastWrite_append,
      lastWrite_append, Circuit.lastWrite_flatMap (not_mem_blocksOf (hafter i hi)), Option.none_or,
      List.flatMap_singleton, p.lastWrite_shift ρ hi, Option.some_or]
  · obtain ⟨s, hs, hname, hrange⟩ := p.signal_of_stage hi
    rw [← hname, ← hrange]
    refine Circuit.width_of_added hall hc (List.mem_append_left _ ?_)
    exact List.mem_append_left _ (List.mem_map_of_mem hs)

end

/-! ### What a call changes -/

namespace Simulator

variable {s : Simulator} {r : String}

theorem settle_cases (s : Simulator) : s.settle.2 = none ∨ s.settle.2 = some .unsettled := by
  unfold settle
  generalize s.circuit.assigns.length + 2 = n
  induction n generalizing s with
  | zero => exact .inr rfl
  | succ n ih =>
    rw [settleWithin]
    split
    · exact .inl rfl
    · exact ih _

/-- Where nothing fails to settle, all assignments hold after a call. -/
theorem settled_call (hs : s.Settled) {c : Call} (h : (s.call c).2 ≠ some .unsettled) :
    (s.call c).1.Settled := by
  have hsettle (s' : Simulator) (h' : s'.settle.2 ≠ some .unsettled) : s'.settle.1.Settled :=
    settle_settled (Prod.ext rfl (s'.settle_cases.resolve_right h'))
  cases c with
  | set name v =>
    simp only [call, set] at h ⊢
    split at h
    · rename_i hunknown
      rw [if_pos hunknown]
      exact hs
    · rename_i hknown
      rw [if_neg hknown]
      split at h
      · rename_i hdriven
        rw [if_pos hdriven]
        exact hs
      · rename_i hfree
        rw [if_neg hfree]
        exact hsettle _ h
  | settle => exact hsettle s h
  | step => exact hsettle s.clock h

/-- A call that is no edge leaves alone what it does not set and nobody drives. -/
theorem get_call {c : Call} (hr : s.circuit.isDriven r = false) (hset : ∀ v, c ≠ .set r v)
    (hstep : c ≠ .step) : (s.call c).1.get r = s.get r := by
  cases c with
  | set name v =>
    have hne : name ≠ r := fun he => hset v (by rw [he])
    simp only [call, set]
    split
    · rfl
    · split
      · rfl
      · exact ((settleWithin_quiet (s := s.put name v) _).get r hr).trans (get_put_of_ne v hne)
  | settle => exact (settleWithin_quiet _).get r hr
  | step => exact absurd rfl hstep

/-- A declared name that nobody drives has what it is set to, cut to its width. -/
theorem get_set (hdeclared : s.circuit.widths.contains r = true)
    (hr : s.circuit.isDriven r = false) (v : UInt64) :
    (s.call (.set r v)).1.get r = Literal.mask v (s.circuit.width r) := by
  have hset : (s.call (.set r v)).1 = (s.put r v).settle.1 := by simp [call, set, hdeclared, hr]
  have hkept : (s.put r v).settle.1.get r = (s.put r v).get r := (settleWithin_quiet _).get r hr
  rw [hset, hkept, get_put, if_pos rfl]

theorem get_call_step (hr : s.circuit.isDriven r = false) :
    (s.call .step).1.get r = s.clock.get r :=
  (settleWithin_quiet _).get r (by rw [circuit_clock]; exact hr)

/-- Logic without a cycle settles in every call. -/
theorem sights_settled {rank : String → Nat} (hk : Ranked s.circuit.assigns rank)
    (cs : List Call) : ∀ x ∈ s.sights cs, x.1 ≠ some .unsettled := by
  have hsettle (s' : Simulator) (h : s'.circuit = s.circuit) : s'.settle.2 = none := by
    obtain ⟨s'', hs''⟩ := settle_ranked (s := s') (h ▸ hk)
    rw [hs'']
  induction cs generalizing s with
  | nil => simp [sights]
  | cons c cs ih =>
    intro x hx
    rcases List.mem_cons.1 hx with rfl | hx
    · cases c with
      | set name v =>
        simp only [call, set]
        split
        · simp
        · split
          · simp
          · simp [hsettle (s.put name v) rfl]
      | settle => simp [call, hsettle s rfl]
      | step => simp [call, step, hsettle s.clock circuit_clock]
    · have hcircuit := call_circuit (s := s) c
      exact ih (by rw [hcircuit]; exact hk) (fun s' h => hsettle s' (h.trans hcircuit)) x hx

/-- The states just before the edges among some calls. -/
def edges (s : Simulator) : List Call → List Simulator
  | [] => []
  | .step :: cs => s :: (s.call .step).1.edges cs
  | .set name v :: cs => (s.call (.set name v)).1.edges cs
  | .settle :: cs => (s.call .settle).1.edges cs

end Simulator

/-! ### Delayed values -/

/-- In a settled state the first stage has the value of the seed, cut to the width. -/
theorem Circuit.Delays.first_eq {c : Circuit} {p : Pipeline} {seed : Expr} (h : c.Delays p seed)
    {s : Simulator} (hs : s.circuit = c) (hsettled : s.Settled) :
    s.get p.first = Literal.mask (seed.eval s.env) (BitRange.simulatedWidth p.range) := by
  have hheld := hsettled (p.first, seed) (hs ▸ h.seed)
  rwa [hs, show c.width p.first = _ from h.width 0 (Nat.zero_le _)] at hheld

namespace Simulator

/-- The registers of a pipeline hold what its first stage had just before the edges `past`. -/
structure Delayed (c : Circuit) (p : Pipeline) (past : List Simulator) (s : Simulator) : Prop where
  circuit : s.circuit = c
  settled : s.Settled
  held : ∀ s' ∈ past, s'.circuit = c ∧ s'.Settled
  stages : ∀ i < p.level, s.get (p.stageName (i + 1)) =
    if i + 1 ≤ past.length then valueAt past (past.length - (i + 1)) p.first else 0

section
variable {s : Simulator} {c : Circuit} {p : Pipeline} {seed : Expr} {past : List Simulator}

/-- The stage before a register, cut to the width: what was there before the last edge. -/
theorem Delayed.mask_stage (hc : c.Delays p seed) (h : s.Delayed c p past) {i : Nat}
    (hi : i < p.level) :
    Literal.mask (s.get (p.stageName i)) (BitRange.simulatedWidth p.range) =
      if i + 1 ≤ (past ++ [s]).length then
        valueAt (past ++ [s]) ((past ++ [s]).length - (i + 1)) p.first
      else 0 := by
  have hmasked : ∀ k, Literal.mask (valueAt past k p.first) (BitRange.simulatedWidth p.range) =
      valueAt past k p.first := fun k => by
    unfold valueAt
    split
    · rename_i s' hs'
      obtain ⟨hcircuit, hsettled⟩ := h.held s' (List.mem_of_getElem? hs')
      rw [hc.first_eq hcircuit hsettled, Literal.mask_mask]
    · exact Literal.mask_zero _
  rw [List.length_append, List.length_singleton]
  cases i with
  | zero =>
    have hlast : (past ++ [s])[past.length + 1 - (0 + 1)]? = some s := by simp
    rw [if_pos (by omega), valueAt_of_getElem? hlast]
    show Literal.mask (s.get p.first) _ = _
    rw [hc.first_eq h.circuit h.settled, Literal.mask_mask]
  | succ i =>
    rw [h.stages i (by omega)]
    by_cases hle : i + 1 ≤ past.length
    · have hkept : (past ++ [s])[past.length + 1 - (i + 1 + 1)]? =
          past[past.length - (i + 1)]? := by
        rw [Nat.add_sub_add_right, List.getElem?_append_left (by omega)]
      rw [if_pos hle, if_pos (by omega), hmasked, valueAt, valueAt, hkept]
    · rw [if_neg hle, if_neg (by omega), Literal.mask_zero]

/-- A call keeps the delay; an edge makes its own state part of the past. -/
theorem Delayed.call (hc : c.Delays p seed) (h : s.Delayed c p past) (x : Call)
    (hset : ∀ i < p.level, ∀ v, x ≠ .set (p.stageName (i + 1)) v)
    (hclean : (s.call x).2 ≠ some .unsettled) :
    (s.call x).1.Delayed c p (past ++ s.edges [x]) := by
  have hcircuit : (s.call x).1.circuit = c := (call_circuit x).trans h.circuit
  have hsettled := settled_call h.settled hclean
  have hfree : ∀ i < p.level, s.circuit.isDriven (p.stageName (i + 1)) = false :=
    fun i hi => h.circuit ▸ hc.undriven i hi
  by_cases hstep : x = .step
  · subst hstep
    refine ⟨hcircuit, hsettled, fun s' hs' => ?_, fun i hi => ?_⟩
    · rcases List.mem_append.1 hs' with hs' | hs'
      · exact h.held s' hs'
      · rw [List.mem_singleton.1 hs']
        exact ⟨h.circuit, h.settled⟩
    · rw [get_call_step (hfree i hi), get_clock, h.circuit, hc.shifts s.env i hi,
        Option.elim_some, hc.width (i + 1) hi]
      exact h.mask_stage hc hi
  · have hedges : s.edges [x] = [] := by
      cases x with
      | step => exact absurd rfl hstep
      | _ => rfl
    rw [hedges, List.append_nil]
    exact ⟨hcircuit, hsettled, h.held, fun i hi =>
      (get_call (hfree i hi) (hset i hi) hstep).trans (h.stages i hi)⟩

theorem edges_cons (s : Simulator) (x : Call) (cs : List Call) :
    s.edges (x :: cs) = s.edges [x] ++ (s.call x).1.edges cs := by
  cases x <;> rfl

theorem Delayed.after (hc : c.Delays p seed) (h : s.Delayed c p past) (cs : List Call)
    (hset : ∀ x ∈ cs, ∀ i < p.level, ∀ v, x ≠ .set (p.stageName (i + 1)) v)
    (hclean : ∀ x ∈ s.sights cs, x.1 ≠ some .unsettled) :
    (s.after cs).Delayed c p (past ++ s.edges cs) := by
  induction cs generalizing s past with
  | nil =>
    rw [edges, List.append_nil]
    exact h
  | cons x cs ih =>
    have hnext := h.call hc x (hset x List.mem_cons_self) (hclean _ List.mem_cons_self)
    rw [edges_cons, ← List.append_assoc]
    exact ih hnext (fun y hy => hset y (List.mem_cons_of_mem _ hy))
      fun y hy => hclean y (List.mem_cons_of_mem _ hy)

end

end Simulator

/-- The width of the stages of a pipeline, as a simulation takes it. -/
theorem Pipeline.simulatedWidth_make (name : String) (level : Int) {width : Int}
    (h : width ≤ 64) :
    BitRange.simulatedWidth (Pipeline.make name level width).range = (max 1 width).toNat := by
  show BitRange.simulatedWidth (BitRange.bits width) = _
  by_cases hone : width ≤ 1
  · rw [BitRange.bits, if_pos hone, max_eq_left hone]
    rfl
  · have hnat : width = (width.toNat : Int) := by omega
    rw [BitRange.bits, if_neg hone, max_eq_right (by omega), hnat]
    exact simulatedWidth_vector (by omega) (by omega)

/-- A pipeline that was added to a module is an exact delay line in every simulation, if no other
logic of the module writes its registers, no call sets them, and everything settles: after `n` edges
stage `i` has what the first stage had just before edge `n - i + 1`, or zero if there were fewer
edges than that, and the first stage has the value of the seed, cut to the width of the pipeline. -/
theorem pipeline_delays {m₀ m₁ : Module} {name : String} {level width : Int} {p : Pipeline}
    (hp : p = .make name level width) {seed : Expr}
    (hadd : m₀.grow (.pipeline p seed) = (m₁, none)) {as : List Addition} {later : List Logic}
    (hlater : (m₁.growAll as).logics = m₁.logics ++ later)
    (hother : ∀ l ∈ m₀.logics ++ later, ∀ i < p.level, p.stageName (i + 1) ∉ l.targets)
    {s : Simulator} (hstart : Simulator.start (m₁.growAll as) = .ok (s, none)) (cs : List Call)
    (hset : ∀ x ∈ cs, ∀ i < p.level, ∀ v, x ≠ .set (p.stageName (i + 1)) v)
    (hclean : ∀ x ∈ s.sights cs, x.1 ≠ some .unsettled) :
    (∀ i, 1 ≤ i → i ≤ p.level → (s.after cs).get (p.stageName i) =
      if i ≤ (s.edges cs).length then valueAt (s.edges cs) ((s.edges cs).length - i) p.first
      else 0) ∧
    (width ≤ 64 → ((s.after cs).get p.first).toNat =
      (seed.eval (s.after cs).env).toNat % Nat.pow 2 (max 1 width).toNat) := by
  obtain ⟨hc, hsettled, hzero⟩ := Simulator.start_spec hstart
  have hdelays := Circuit.delays_of_grow hadd hlater hother hc
  have hinitial : s.Delayed s.circuit p [] :=
    ⟨rfl, hsettled, nofun, fun i hi => hzero _ (hdelays.undriven i hi)⟩
  have hlast := hinitial.after hdelays cs hset hclean
  rw [List.nil_append] at hlast
  refine ⟨fun i hpos hi => ?_, fun hwidth => ?_⟩
  · obtain ⟨i, rfl⟩ : ∃ k, i = k + 1 := ⟨i - 1, by omega⟩
    exact hlast.stages i hi
  · have hrange : BitRange.simulatedWidth p.range = (max 1 width).toNat := by
      rw [hp, Pipeline.simulatedWidth_make name level hwidth]
    rw [hdelays.first_eq hlast.circuit hlast.settled, hrange]
    exact Literal.toNat_mask _ (by omega)

/-- The four low bits of an input two cycles late, and other logic that sums them up.  The input
cannot be declared again. -/
def lateInput : Module := ((Module.new "late").grow (.ports [⟨"x", .input, BitRange.bits 8⟩])).1

def latePipeline : Pipeline := .make "d" 2 4

def lateSum : List Logic :=
  [.clocked [.assign "sum" (.binary .add (.ident "sum") (.ident "d__q2"))] false]

def lateAdditions : List Addition :=
  [.signals [⟨"sum", .reg, BitRange.bits 4, []⟩], .ports [⟨"x", .output, none⟩], .logics lateSum]

def lateModule : Module := (lateInput.grow (.pipeline latePipeline (.ident "x"))).1

theorem pipeline_delays_late :
    lateInput.grow (.pipeline latePipeline (.ident "x")) = (lateModule, none) ∧
    (lateModule.growAll lateAdditions).logics = lateModule.logics ++ lateSum ∧
    (∀ l ∈ lateInput.logics ++ lateSum, ∀ i < latePipeline.level,
      latePipeline.stageName (i + 1) ∉ l.targets) ∧
    ∃ s, Simulator.start (lateModule.growAll lateAdditions) = .ok (s, none) ∧
      (∀ x ∈ s.sights [.set "x" 21, .step, .set "x" 9, .step], x.1 ≠ some .unsettled) ∧
      (s.after [.set "x" 21, .step, .set "x" 9, .step]).get "d__q2" = 5 := by
  have hp : latePipeline = .make "d" 2 4 := rfl
  have hadd : lateInput.grow (.pipeline latePipeline (.ident "x")) = (lateModule, none) := rfl
  have hlater : (lateModule.growAll lateAdditions).logics = lateModule.logics ++ lateSum := rfl
  have hother : ∀ l ∈ lateInput.logics ++ lateSum, ∀ i < latePipeline.level,
      latePipeline.stageName (i + 1) ∉ l.targets := by decide
  have hranked : Ranked (Circuit.assignsOf (lateModule.growAll lateAdditions).logics)
      fun _ => 0 := ⟨by decide, by decide, by decide⟩
  obtain ⟨s, hstart, hcircuit⟩ := Simulator.start_ranked hranked (by decide)
  have hclean (cs : List Call) : ∀ x ∈ s.sights cs, x.1 ≠ some .unsettled :=
    Simulator.sights_settled (by rw [hcircuit]; exact hranked) cs
  have hset (v : UInt64) (i : Nat) (hi : i < latePipeline.level) (w : UInt64) :
      Call.set "x" v ≠ .set (latePipeline.stageName (i + 1)) w := by
    have hname : ∀ i < latePipeline.level, "x" ≠ latePipeline.stageName (i + 1) := by decide
    exact fun he => hname i hi (Call.set.inj he).1
  -- what the first stage has when the input is set
  obtain ⟨-, hfirst⟩ := pipeline_delays hp hadd hlater hother hstart [.set "x" 21]
    (by simpa using hset 21) (hclean _)
  have hwidth : s.circuit.width "x" = 8 := by
    have hunshared : ∀ x ∈ (lateModule.growAll lateAdditions).signals, x.name ≠ "x" := by decide
    rw [hcircuit]
    refine getD_foldl_insert Signal.name _ _ _ (fun x hx he => absurd he (hunshared x hx)) (.inr ?_)
    exact Std.HashMap.getD_insert_self
  have hx : (s.after [.set "x" 21]).get "x" = 21 := by
    refine (Simulator.get_set ?_ ?_ 21).trans ?_
    · rw [hcircuit]
      exact contains_widthsOf _ "x"
    · rw [hcircuit]
      decide
    · rw [hwidth]
      rfl
  have hseed : (s.after [.set "x" 21]).get latePipeline.first = 5 := by
    have heval : (Expr.ident "x").eval (s.after [.set "x" 21]).env = 21 := hx
    have hlow := hfirst (by decide)
    rw [heval] at hlow
    exact UInt64.toNat.inj hlow
  obtain ⟨hstages, -⟩ := pipeline_delays hp hadd hlater hother hstart
    [.set "x" 21, .step, .set "x" 9, .step] (by simpa using hset) (hclean _)
  exact ⟨hadd, hlater, hother, s, hstart, hclean _, (hstages 2 (by decide) (by decide)).trans hseed⟩

end TaskLoom
