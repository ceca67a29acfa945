import TaskLoom.Proofs.Simulation.Clock

/-!
# Runs of a simulation

A run is a list of cycles.  In each cycle the environment drives some names, one call after the
other, and everything settles; the values of the cycle are those just before its edge
(`Simulator.cycles`, `simulate`).  A run exists only if no call fails.

`Evolution` says what a run does to names that the environment leaves alone and no assignment
drives: they start at zero and change at edges only, by what the blocks write.  All cycles are
settled.
-/

namespace TaskLoom

/-- What an environment drives in one cycle, in order. -/
abbrev Drive := List (String × UInt64)

namespace Simulator

/-- Drives names one after the other, up to the first failure. -/
def drive (s : Simulator) : Drive → Except SimulationError Simulator
  | [] => .ok s
  | (name, v) :: rest =>
    match s.set name v with
    | (s', none) => s'.drive rest
    | (_, some e) => .error e

/-- The cycles of a run from a settled state, each with its values just before the edge.  There is
an edge between any two cycles. -/
def cycles (s : Simulator) : List Drive → Except SimulationError (List Simulator)
  | [] => .ok []
  | [d] => do return [← s.drive d]
  | d :: d' :: ds => do
    let s₁ ← s.drive d
    match s₁.step with
    | (s₂, none) => return s₁ :: (← s₂.cycles (d' :: ds))
    | (_, some e) => throw e

end Simulator

/-- The cycles of a run of a module from the state with all values zero. -/
def simulate (m : Module) (ds : List Drive) : Except SimulationError (List Simulator) := do
  match ← Simulator.start m with
  | (s, none) => s.cycles ds
  | (_, some e) => throw e

/-- The value of a name in a cycle of a run, zero after its last cycle. -/
def valueAt (cs : List Simulator) (t : Nat) (name : String) : UInt64 :=
  match cs[t]? with
  | some s => s.get name
  | none => 0

theorem valueAt_of_getElem? {cs : List Simulator} {t : Nat} {s : Simulator} (h : cs[t]? = some s)
    (name : String) : valueAt cs t name = s.get name := by
  rw [valueAt, h]

namespace Simulator

variable {s s' : Simulator} {c : Circuit}

theorem set_spec {name : String} {v : UInt64} (h : s.set name v = (s', none)) :
    s'.circuit = s.circuit ∧ s'.Settled ∧
      ∀ r, s.circuit.isDriven r = false → name ≠ r → s'.get r = s.get r := by
  unfold set at h
  split at h
  · cases h
  split at h
  · cases h
  have hq := settle_frame h
  refine ⟨hq.circuit, settle_settled h, fun r hr hne => ?_⟩
  rw [hq.get r hr, get_put_of_ne v hne]

theorem drive_spec {d : Drive} (hs : s.Settled) (h : s.drive d = .ok s') :
    s'.circuit = s.circuit ∧ s'.Settled ∧
      ∀ r, s.circuit.isDriven r = false → (∀ x ∈ d, x.1 ≠ r) → s'.get r = s.get r := by
  induction d generalizing s with
  | nil =>
    simp only [drive, Except.ok.injEq] at h
    subst h
    exact ⟨rfl, hs, fun _ _ _ => rfl⟩
  | cons x d ih =>
    obtain ⟨name, v⟩ := x
    simp only [drive] at h
    split at h
    · rename_i s₁ hs₁
      obtain ⟨hc, hset, hget⟩ := set_spec hs₁
      obtain ⟨hc', hset', hget'⟩ := ih hset h
      refine ⟨hc'.trans hc, hset', fun r hr hd => ?_⟩
      rw [hget' r (by rw [hc]; exact hr) fun x hx => hd x (by simp [hx]),
        hget r hr (hd (name, v) (by simp))]
    · cases h

/-- A name that was driven once has the value that it was given, cut to its width. -/
theorem drive_get {d : Drive} (h : s.drive d = .ok s') (hnd : (d.map Prod.fst).Nodup)
    {x : String × UInt64} (hx : x ∈ d) :
    s'.get x.1 = Literal.mask x.2 (s'.circuit.width x.1) := by
  induction d generalizing s with
  | nil => simp at hx
  | cons y d ih =>
    obtain ⟨hny, hnd⟩ := List.nodup_cons.1 hnd
    simp only [drive] at h
    split at h
    · rename_i s₁ hs₁
      rcases List.mem_cons.1 hx with rfl | hx
      · obtain ⟨hc, hset, -⟩ := set_spec hs₁
        obtain ⟨hc', -, hget'⟩ := drive_spec hset h
        have hfree : s.circuit.isDriven x.1 = false := by
          by_cases hd : s.circuit.isDriven x.1 = true
          · unfold set at hs₁
            rw [hd] at hs₁
            split at hs₁ <;> cases hs₁
          · simpa using hd
        rw [hget' x.1 (by rw [hc]; exact hfree) fun z hz he => hny (List.mem_map.2 ⟨z, hz, he⟩),
          hc', hc]
        unfold set at hs₁
        rw [hfree] at hs₁
        split at hs₁
        · cases hs₁
        · rw [(settle_frame hs₁).get x.1 hfree, get_put, if_pos rfl]
      · exact ih h hnd hx
    · cases h

theorem step_spec (h : s.step = (s', none)) :
    s'.circuit = s.circuit ∧ s'.Settled ∧
      ∀ r, s.circuit.isDriven r = false → s'.get r = s.clock.get r := by
  have hq := settle_frame h
  refine ⟨hq.circuit.trans circuit_clock, settle_settled h, fun r hr => ?_⟩
  exact hq.get r (by rw [circuit_clock]; exact hr)

theorem start_spec {m : Module} (h : start m = .ok (s, none)) :
    Circuit.ofModule m = .ok s.circuit ∧ s.Settled ∧
      ∀ r, s.circuit.isDriven r = false → s.get r = 0 := by
  unfold start at h
  cases hc : Circuit.ofModule m with
  | error e => rw [hc] at h; cases h
  | ok c =>
    rw [hc] at h
    have hset : (initial c).settle = (s, none) := Except.ok.inj h
    have hq := settle_frame hset
    refine ⟨by rw [hq.circuit]; rfl, settle_settled hset, fun r hr => ?_⟩
    rw [hq.circuit] at hr
    rw [hq.get r hr]
    simp [get, initial]

end Simulator

/-! ### The cycles of a run -/

/-- How the cycles of a run of a circuit go on, for names that satisfy `kept`, which neither the
environment nor an assignment drives: they begin with the values `v₀`. -/
structure EvolutionFrom (c : Circuit) (kept : String → Prop) (v₀ : String → UInt64)
    (cs : List Simulator) : Prop where
  circuit : ∀ s ∈ cs, s.circuit = c
  settled : ∀ s ∈ cs, s.Settled
  first : ∀ s, cs[0]? = some s → ∀ r, kept r → s.get r = v₀ r
  next : ∀ t s s', cs[t]? = some s → cs[t + 1]? = some s' → ∀ r, kept r → s'.get r = s.clock.get r

theorem EvolutionFrom.cons {c : Circuit} {kept : String → Prop} {v₀ : String → UInt64}
    {s : Simulator} {cs : List Simulator} (hc : s.circuit = c) (hs : s.Settled)
    (hfirst : ∀ r, kept r → s.get r = v₀ r) (h : EvolutionFrom c kept s.clock.get cs) :
    EvolutionFrom c kept v₀ (s :: cs) where
  circuit s' hs' := by
    rcases List.mem_cons.1 hs' with rfl | hs'
    · exact hc
    · exact h.circuit s' hs'
  settled s' hs' := by
    rcases List.mem_cons.1 hs' with rfl | hs'
    · exact hs
    · exact h.settled s' hs'
  first s' hs' r hr := by
    obtain rfl : s = s' := by simpa using hs'
    exact hfirst r hr
  next t s₁ s₂ h₁ h₂ r hr := by
    cases t with
    | zero =>
      obtain rfl : s = s₁ := by simpa using h₁
      exact h.first s₂ (by simpa using h₂) r hr
    | succ t => exact h.next t s₁ s₂ (by simpa using h₁) (by simpa using h₂) r hr

theorem EvolutionFrom.nil {c : Circuit} {kept : String → Prop} {v₀ : String → UInt64} :
    EvolutionFrom c kept v₀ [] :=
  ⟨by simp, by simp, by simp, by simp⟩

theorem Simulator.cycles_last {s : Simulator} {d : Drive} {cs : List Simulator}
    (h : s.cycles [d] = .ok cs) : ∃ s₁, s.drive d = .ok s₁ ∧ cs = [s₁] := by
  cases hd : s.drive d with
  | error e => rw [cycles, hd] at h; cases h
  | ok s₁ =>
    rw [cycles, hd] at h
    exact ⟨s₁, rfl, (Except.ok.inj h).symm⟩

theorem Simulator.cycles_cons {s : Simulator} {d d' : Drive} {ds : List Drive}
    {cs : List Simulator} (h : s.cycles (d :: d' :: ds) = .ok cs) :
    ∃ s₁ s₂ rest, s.drive d = .ok s₁ ∧ s₁.step = (s₂, none) ∧
      s₂.cycles (d' :: ds) = .ok rest ∧ cs = s₁ :: rest := by
  rw [cycles] at h
  cases hd : s.drive d with
  | error e => rw [hd] at h; cases h
  | ok s₁ =>
    cases hstep : s₁.step with
    | mk s₂ failure =>
      rw [hd] at h
      cases failure with
      | some e => simp only [bind, Except.bind, hstep] at h; cases h
      | none =>
        cases hrest : s₂.cycles (d' :: ds) with
        | error e => simp only [bind, Except.bind, hstep, hrest] at h; cases h
        | ok rest =>
          simp only [bind, Except.bind, hstep, hrest] at h
          exact ⟨s₁, s₂, rest, rfl, hstep, hrest, (Except.ok.inj h).symm⟩

theorem Simulator.cycles_spec {kept : String → Prop} {s : Simulator} {ds : List Drive}
    {cs : List Simulator} (hset : s.Settled) (hkept : ∀ r, kept r → s.circuit.isDriven r = false)
    (hds : ∀ d ∈ ds, ∀ x ∈ d, ¬ kept x.1) (h : s.cycles ds = .ok cs) :
    EvolutionFrom s.circuit kept s.get cs ∧ cs.length = ds.length := by
  have hleft {d : Drive} (hd : d ∈ ds) {r : String} (hr : kept r) : ∀ x ∈ d, x.1 ≠ r :=
    fun x hx he => hds d hd x hx (he ▸ hr)
  fun_induction Simulator.cycles s ds generalizing cs with
  | case1 s =>
    obtain rfl : [] = cs := Except.ok.inj h
    exact ⟨.nil, rfl⟩
  | case2 s d =>
    obtain ⟨s₁, hd, rfl⟩ := cycles_last h
    obtain ⟨hc, hs₁, hget⟩ := drive_spec hset hd
    exact ⟨.cons hc hs₁ (fun r hr => hget r (hkept r hr) (hleft (by simp) hr)) .nil, rfl⟩
  | case3 s d d' ds ih =>
    obtain ⟨s₁, s₂, rest, hd, hstep, hrest, rfl⟩ := cycles_cons h
    obtain ⟨hc, hs₁, hget⟩ := drive_spec hset hd
    obtain ⟨hc', hs₂, hget'⟩ := step_spec hstep
    have hcc : s₂.circuit = s.circuit := hc'.trans hc
    obtain ⟨hev, hlen⟩ := ih s₂ hs₂ (by rw [hcc]; exact hkept)
      (fun d hd => hds d (by simp [hd])) hrest fun hd => hleft (by simp [hd])
    rw [hcc] at hev
    refine ⟨.cons hc hs₁ (fun r hr => hget r (hkept r hr) (hleft (by simp) hr)) ?_, by simp [hlen]⟩
    refine ⟨hev.circuit, hev.settled, fun s' hs' r hr => ?_, hev.next⟩
    rw [hev.first s' hs' r hr]
    exact hget' r (by rw [hc]; exact hkept r hr)

theorem Simulator.cycles_drive {s : Simulator} {ds : List Drive} {cs : List Simulator}
    (h : s.cycles ds = .ok cs) {t : Nat} {d : Drive} {s' : Simulator} (hd : ds[t]? = some d)
    (hs' : cs[t]? = some s') : ∃ s₀ : Simulator, s₀.drive d = .ok s' := by
  fun_induction Simulator.cycles s ds generalizing cs t with
  | case1 s => simp at hd
  | case2 s d₀ =>
    obtain ⟨s₁, hs₁, rfl⟩ := cycles_last h
    cases t with
    | zero =>
      obtain rfl : d₀ = d := by simpa using hd
      obtain rfl : s₁ = s' := by simpa using hs'
      exact ⟨s, hs₁⟩
    | succ t => simp at hd
  | case3 s d₀ d' ds ih =>
    obtain ⟨s₁, s₂, rest, hs₁, -, hrest, rfl⟩ := cycles_cons h
    cases t with
    | zero =>
      obtain rfl : d₀ = d := by simpa using hd
      obtain rfl : s₁ = s' := by simpa using hs'
      exact ⟨s, hs₁⟩
    | succ t => exact ih s₂ hrest (by simpa using hd) (by simpa using hs')

/-- How a run goes on for names that neither the environment nor an assignment drives. -/
abbrev Evolution (c : Circuit) (kept : String → Prop) (cs : List Simulator) : Prop :=
  EvolutionFrom c kept (fun _ => 0) cs

theorem simulate_evolution (kept : String → Prop) {m : Module} {c : Circuit} {ds : List Drive}
    {cs : List Simulator} (hc : Circuit.ofModule m = .ok c)
    (hkept : ∀ r, kept r → c.isDriven r = false) (hds : ∀ d ∈ ds, ∀ x ∈ d, ¬ kept x.1)
    (h : simulate m ds = .ok cs) : Evolution c kept cs ∧ cs.length = ds.length := by
  unfold simulate at h
  cases hs : Simulator.start m with
  | error e => rw [hs] at h; cases h
  | ok p =>
    obtain ⟨s, failure⟩ := p
    rw [hs] at h
    cases failure with
    | some e => cases h
    | none =>
      obtain ⟨hm, hset, hzero⟩ := Simulator.start_spec hs
      obtain rfl : s.circuit = c := Except.ok.inj (hm.symm.trans hc)
      obtain ⟨hev, hlen⟩ := Simulator.cycles_spec hset hkept hds h
      exact ⟨⟨hev.circuit, hev.settled, fun s' hs' r hr => by
        rw [hev.first s' hs' r hr, hzero r (hkept r hr)], hev.next⟩, hlen⟩

theorem simulate_drive {m : Module} {ds : List Drive} {cs : List Simulator}
    (h : simulate m ds = .ok cs) {t : Nat} {d : Drive} {s' : Simulator} (hd : ds[t]? = some d)
    (hs' : cs[t]? = some s') : ∃ s₀ : Simulator, s₀.drive d = .ok s' := by
  unfold simulate at h
  cases hs : Simulator.start m with
  | error e => rw [hs] at h; cases h
  | ok p =>
    obtain ⟨s, failure⟩ := p
    rw [hs] at h
    cases failure with
    | some e => cases h
    | none => exact Simulator.cycles_drive h hd hs'

/-- The values of a cycle, with the widths of the circuit. -/
def envAt (c : Circuit) (cs : List Simulator) (t : Nat) : Env := ⟨valueAt cs t, c.width⟩

@[simp] theorem envAt_value (c : Circuit) (cs : List Simulator) (t : Nat) (name : String) :
    (envAt c cs t).value name = valueAt cs t name := rfl

@[simp] theorem envAt_width (c : Circuit) (cs : List Simulator) (t : Nat) (name : String) :
    (envAt c cs t).width name = c.width name := rfl

namespace EvolutionFrom

variable {c : Circuit} {kept : String → Prop} {cs : List Simulator} {t : Nat}

theorem env_eq (h : Evolution c kept cs) {s : Simulator} (hs : cs[t]? = some s) :
    s.env = envAt c cs t := by
  have hc := h.circuit s (List.mem_of_getElem? hs)
  have hv : valueAt cs t = s.get := funext fun name => valueAt_of_getElem? hs name
  rw [envAt, hv, ← hc]
  rfl

theorem value_first (h : Evolution c kept cs) {r : String} (hr : kept r) : valueAt cs 0 r = 0 := by
  unfold valueAt
  split
  · rename_i s hs
    exact h.first s hs r hr
  · rfl

/-- The target of an assignment has the value of the right-hand side in the same cycle. -/
theorem value_assign (h : Evolution c kept cs) (ht : t < cs.length) {a : String × Expr}
    (ha : a ∈ c.assigns) :
    valueAt cs t a.1 = Literal.mask (a.2.eval (envAt c cs t)) (c.width a.1) := by
  have hs : cs[t]? = some cs[t] := List.getElem?_eq_getElem ht
  have hc := h.circuit cs[t] (List.getElem_mem ht)
  have hset := h.settled cs[t] (List.getElem_mem ht) a (by rw [hc]; exact ha)
  rw [valueAt_of_getElem? hs, hset, h.env_eq hs, hc]

/-- A register takes what its block writes in the cycle before, or keeps its value. -/
theorem value_next (h : Evolution c kept cs) (hapart : c.Apart) (ht : t + 1 < cs.length)
    {b : List Stmt} {r : String} (hb : b ∈ c.blocks) (hr : r ∈ Stmt.allTargets b)
    (hk : kept r) :
    valueAt cs (t + 1) r =
      (lastWrite r (Stmt.allWrites (envAt c cs t) b)).elim (valueAt cs t r)
        (Literal.mask · (c.width r)) := by
  have hs : cs[t]? = some cs[t] := List.getElem?_eq_getElem (by omega)
  have hs' : cs[t + 1]? = some cs[t + 1] := List.getElem?_eq_getElem ht
  have hc := h.circuit cs[t] (List.getElem_mem _)
  rw [valueAt_of_getElem? hs', h.next t _ _ hs hs' r hk,
    Simulator.get_clock_of_mem (by rw [hc]; exact hapart) (by rw [hc]; exact hb) hr, h.env_eq hs,
    hc, valueAt_of_getElem? hs]

end EvolutionFrom

end TaskLoom
