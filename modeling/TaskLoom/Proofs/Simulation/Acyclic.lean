import TaskLoom.Proofs.Simulation.Run

/-!
# Logic without a cycle settles

`Ranked as rank`: the assignments `as` have different targets, and each reads only targets of a
lower rank.  A pass that starts with all ranks below `r` settled leaves them
alone and settles rank `r` as well (`Simulator.pass_below`), so every simulation of such a circuit
settles (`Simulator.settle_ranked`).  A run then fails only at a name that cannot be driven
(`simulate_ok`).
-/

namespace TaskLoom

namespace Expr

mutual

/-- The names that an expression reads. -/
def names : Expr → List String
  | .ident name => [name]
  | .unary _ x => names x
  | .binary _ x y => names x ++ names y
  | .all terms => allNames terms
  | .absent | .const .. | .literal _ => []

def allNames : List Expr → List String
  | [] => []
  | t :: ts => names t ++ allNames ts

end

theorem width_congr {ρ ρ' : Env} (hw : ρ.width = ρ'.width) (e : Expr) : e.width ρ = e.width ρ' := by
  induction e using Expr.width.induct <;> simp_all [width]

mutual

/-- The value of an expression depends on the names that it reads only. -/
theorem eval_congr {ρ ρ' : Env} (hw : ρ.width = ρ'.width) (e : Expr)
    (h : ∀ x ∈ e.names, ρ.value x = ρ'.value x) : e.eval ρ = e.eval ρ' := by
  cases e with
  | absent => rfl
  | ident name => exact h name (by simp [names])
  | const w x => rfl
  | literal s => rfl
  | unary op x =>
    have hx := eval_congr hw x h
    cases op <;> simp only [eval, hx, width_congr hw]
  | binary op x y =>
    have hx := eval_congr hw x fun z hz => h z (by simp [names, hz])
    have hy := eval_congr hw y fun z hz => h z (by simp [names, hz])
    simp only [eval, hx, hy, width_congr hw]
  | all terms => simp only [eval, holdsAll_congr hw terms h]

theorem holdsAll_congr {ρ ρ' : Env} (hw : ρ.width = ρ'.width) (terms : List Expr)
    (h : ∀ x ∈ allNames terms, ρ.value x = ρ'.value x) : holdsAll ρ terms = holdsAll ρ' terms := by
  cases terms with
  | nil => rfl
  | cons t ts =>
    have ht := eval_congr hw t fun z hz => h z (by simp [allNames, hz])
    have hts := holdsAll_congr hw ts fun z hz => h z (by simp [allNames, hz])
    simp only [holdsAll, ht, hts]

end

end Expr

structure Ranked (as : List (String × Expr)) (rank : String → Nat) : Prop where
  distinct : (as.map Prod.fst).Nodup
  lower : ∀ a ∈ as, ∀ b ∈ as, b.1 ∈ a.2.names → rank b.1 < rank a.1
  bounded : ∀ a ∈ as, rank a.1 < as.length

namespace Simulator

variable {s s' : Simulator} {rank : String → Nat} {r : Nat}

def Holds (s : Simulator) (a : String × Expr) : Prop :=
  s.get a.1 = Literal.mask (a.2.eval s.env) (s.circuit.width a.1)

/-- The names that a pass leaves alone once all ranks below `r` are settled. -/
def Fixed (c : Circuit) (rank : String → Nat) (r : Nat) (x : String) : Prop :=
  c.isDriven x = true → rank x < r

theorem Holds.congr {a : String × Expr} (h : s.Holds a) (hc : s'.circuit = s.circuit)
    (ht : s'.get a.1 = s.get a.1) (hx : ∀ x ∈ a.2.names, s'.get x = s.get x) : s'.Holds a := by
  have heval : a.2.eval s'.env = a.2.eval s.env :=
    Expr.eval_congr (by rw [env, env, hc]) a.2 hx
  rw [Holds, ht, heval, hc]
  exact h

theorem pass_get_of_ne (as : List (String × Expr)) {x : String} (h : ∀ a ∈ as, a.1 ≠ x) :
    (s.pass as).1.get x = s.get x := by
  induction as generalizing s with
  | nil => rfl
  | cons a as ih =>
    show ((s.update a.1 a.2).1.pass as).1.get x = s.get x
    rw [ih fun b hb => h b (by simp [hb]), update_get, if_neg (h a (by simp))]

theorem pass_circuit (as : List (String × Expr)) : (s.pass as).1.circuit = s.circuit := by
  induction as generalizing s with
  | nil => rfl
  | cons a as ih =>
    show ((s.update a.1 a.2).1.pass as).1.circuit = s.circuit
    rw [ih, update_circuit]

/-- All assignments to targets of a rank below `r` hold. -/
def Below (s : Simulator) (rank : String → Nat) (r : Nat) : Prop :=
  ∀ a ∈ s.circuit.assigns, rank a.1 < r → s.Holds a

/-- What an assignment of rank `r` or less reads is fixed. -/
theorem fixed_of_mem {c : Circuit} (hk : Ranked c.assigns rank) {a : String × Expr}
    (ha : a ∈ c.assigns) (hr : rank a.1 ≤ r) {x : String} (hx : x ∈ a.2.names) :
    Fixed c rank r x := fun hd => by
  obtain ⟨b, hb, he⟩ := List.any_eq_true.1 hd
  have he : b.1 = x := by simpa using he
  have := hk.lower a ha b hb (he ▸ hx)
  rw [he] at this
  omega

theorem update_fixed (hb : s.Below rank r) {a : String × Expr} (ha : a ∈ s.circuit.assigns)
    {x : String} (hx : Fixed s.circuit rank r x) : (s.update a.1 a.2).1.get x = s.get x := by
  rw [update_get]
  split
  · rename_i he
    subst he
    exact (hb a ha (hx (isDriven_of_mem ha))).symm
  · rfl

theorem update_below (hk : Ranked s.circuit.assigns rank) (hb : s.Below rank r) {a : String × Expr}
    (ha : a ∈ s.circuit.assigns) : (s.update a.1 a.2).1.Below rank r := by
  intro b hmem hlt
  rw [update_circuit] at hmem
  refine (hb b hmem hlt).congr update_circuit (update_fixed hb ha fun _ => hlt) fun x hx => ?_
  exact update_fixed hb ha (fixed_of_mem hk hmem (by omega) hx)

/-- The target of an assignment that reads fixed names has the right value once it is updated. -/
theorem update_holds (hk : Ranked s.circuit.assigns rank) (hb : s.Below rank r) {a : String × Expr}
    (ha : a ∈ s.circuit.assigns) (hr : rank a.1 ≤ r) : (s.update a.1 a.2).1.Holds a := by
  have heval : a.2.eval (s.update a.1 a.2).1.env = a.2.eval s.env :=
    Expr.eval_congr (by rw [env, env, update_circuit]) a.2 fun x hx =>
      update_fixed hb ha (fixed_of_mem hk ha hr hx)
  rw [Holds, update_get, if_pos rfl, heval, update_circuit]

/-- A pass with all ranks below `r` settled: it keeps what is fixed, and settles rank `r`. -/
theorem pass_below (hk : Ranked s.circuit.assigns rank) (hb : s.Below rank r)
    (as : List (String × Expr)) (has : as ⊆ s.circuit.assigns) (hnd : (as.map Prod.fst).Nodup) :
    (∀ x, Fixed s.circuit rank r x → (s.pass as).1.get x = s.get x) ∧
    ∀ a ∈ as, rank a.1 ≤ r → (s.pass as).1.Holds a := by
  induction as generalizing s with
  | nil => exact ⟨fun _ _ => rfl, by simp⟩
  | cons a as ih =>
    have ha : a ∈ s.circuit.assigns := has (by simp)
    have hc : (s.update a.1 a.2).1.circuit = s.circuit := update_circuit
    obtain ⟨hna, hnd⟩ := List.nodup_cons.1 hnd
    obtain ⟨hfix, hhold⟩ := ih (s := (s.update a.1 a.2).1) (by rw [hc]; exact hk)
      (update_below hk hb ha) (by rw [hc]; exact fun b hm => has (by simp [hm])) hnd
    rw [hc] at hfix
    refine ⟨fun x hx => (hfix x hx).trans (update_fixed hb ha hx), fun b hmem hr => ?_⟩
    rcases List.mem_cons.1 hmem with rfl | hmem
    · -- the rest of the pass neither drives the target again nor changes what is read
      refine (update_holds hk hb ha hr).congr (pass_circuit as) ?_ fun x hx => ?_
      · exact pass_get_of_ne as fun a' ha' he => hna (List.mem_map.2 ⟨a', ha', he⟩)
      · exact hfix x (fixed_of_mem hk ha hr hx)
    · exact hhold b hmem hr

theorem pass_of_holds (as : List (String × Expr)) (h : ∀ a ∈ as, s.Holds a) :
    s.pass as = (s, false) := by
  induction as with
  | nil => rfl
  | cons a as ih =>
    rw [pass, update_of_eq (h a (by simp))]
    simp only [ih fun b hb => h b (by simp [hb]), Bool.or_self]

/-- Enough passes for the ranks that are left. -/
theorem settleWithin_ranked (hk : Ranked s.circuit.assigns rank) (hb : s.Below rank r) {n : Nat}
    (hr : r ≤ s.circuit.assigns.length) (hn : s.circuit.assigns.length < n + r) :
    ∃ s', s.settleWithin n = (s', none) := by
  induction n generalizing s r with
  | zero => omega
  | succ n ih =>
    rw [settleWithin]
    split
    · exact ⟨_, rfl⟩
    · -- a pass that changed something: not all ranks were settled, and one more is now
      rename_i s₁ hs₁
      have hlt : r < s.circuit.assigns.length := by
        refine Nat.lt_of_le_of_ne hr fun he => ?_
        have hpass := pass_of_holds s.circuit.assigns fun a ha =>
          hb a ha (he ▸ hk.bounded a ha)
        rw [hpass] at hs₁
        cases hs₁
      have hc : s₁.circuit = s.circuit := by
        rw [← pass_circuit (s := s) s.circuit.assigns, hs₁]
      have hhold := (pass_below hk hb s.circuit.assigns (List.Subset.refl _) hk.distinct).2
      rw [hs₁] at hhold
      refine ih (s := s₁) (r := r + 1) (by rw [hc]; exact hk) ?_ (by rw [hc]; omega)
        (by rw [hc]; omega)
      intro a ha hlt'
      rw [hc] at ha
      exact hhold a ha (by omega)

/-- Logic without a cycle settles from any values. -/
theorem settle_ranked (hk : Ranked s.circuit.assigns rank) : ∃ s', s.settle = (s', none) :=
  settleWithin_ranked (r := 0) hk (fun _ _ h => absurd h (Nat.not_lt_zero _)) (Nat.zero_le _)
    (by omega)

theorem set_ranked (hk : Ranked s.circuit.assigns rank) {name : String} {v : UInt64}
    (hdecl : s.circuit.widths.contains name = true) (hfree : s.circuit.isDriven name = false) :
    ∃ s', s.set name v = (s', none) := by
  obtain ⟨s', hs'⟩ := settle_ranked (s := s.put name v) hk
  exact ⟨s', by simp [set, hdecl, hfree, hs']⟩

theorem drive_ranked (hk : Ranked s.circuit.assigns rank) {d : Drive} (hd : ∀ x ∈ d,
    s.circuit.widths.contains x.1 = true ∧ s.circuit.isDriven x.1 = false) :
    ∃ s', s.drive d = .ok s' ∧ s'.circuit = s.circuit := by
  induction d generalizing s with
  | nil => exact ⟨s, rfl, rfl⟩
  | cons x d ih =>
    obtain ⟨hdecl, hfree⟩ := hd x (by simp)
    obtain ⟨s₁, hs₁⟩ := set_ranked (v := x.2) hk hdecl hfree
    have hc := (set_spec hs₁).1
    obtain ⟨s', hs', hc'⟩ := ih (s := s₁) (by rw [hc]; exact hk) fun y hy => by
      rw [hc]
      exact hd y (by simp [hy])
    exact ⟨s', by simp [drive, hs₁, hs'], hc'.trans hc⟩

theorem cycles_ranked (hk : Ranked s.circuit.assigns rank) {ds : List Drive}
    (hds : ∀ d ∈ ds, ∀ x ∈ d,
      s.circuit.widths.contains x.1 = true ∧ s.circuit.isDriven x.1 = false) :
    ∃ cs, s.cycles ds = .ok cs := by
  fun_induction Simulator.cycles s ds with
  | case1 s => exact ⟨[], rfl⟩
  | case2 s d =>
    obtain ⟨s₁, hs₁, -⟩ := drive_ranked hk (hds d (by simp))
    exact ⟨[s₁], by rw [hs₁]; rfl⟩
  | case3 s d d' ds ih =>
    obtain ⟨s₁, hs₁, hc₁⟩ := drive_ranked hk (hds d (by simp))
    have hk₁ : Ranked s₁.clock.circuit.assigns rank := by
      rw [circuit_clock, hc₁]
      exact hk
    obtain ⟨s₂, hs₂⟩ := settle_ranked hk₁
    have hstep : s₁.step = (s₂, none) := hs₂
    have hc₂ : s₂.circuit = s.circuit := (step_spec hstep).1.trans hc₁
    obtain ⟨cs, hcs⟩ := ih s₂ (by rw [hc₂]; exact hk) (by
      rw [hc₂]
      exact fun e he => hds e (by simp [he]))
    exact ⟨s₁ :: cs, by simp only [hs₁, bind, Except.bind, hstep, hcs]; rfl⟩

end Simulator

/-- Whether a module has a port or a signal of a name. -/
def Module.carries (m : Module) (name : String) : Bool :=
  m.ports.any (·.name == name) || m.signals.any (·.name == name)

theorem contains_foldl_insert {α : Type} (key : α → String) (f : α → Int) (n : String) (xs : List α)
    (ws : Std.HashMap String Int) :
    (xs.foldl (fun ws x => ws.insert (key x) (f x)) ws).contains n =
      (xs.any (key · == n) || ws.contains n) := by
  induction xs generalizing ws with
  | nil => simp
  | cons x xs ih =>
    rw [List.foldl_cons, ih, Std.HashMap.contains_insert, List.any_cons]
    cases xs.any (key · == n) <;> simp

theorem contains_widthsOf (m : Module) (name : String) :
    (Circuit.widthsOf m).contains name = m.carries name := by
  unfold Circuit.widthsOf Module.carries
  rw [contains_foldl_insert, contains_foldl_insert]
  simp [Bool.or_comm]

theorem Circuit.ofModule_ok {m : Module}
    (h : ∀ a ∈ Circuit.assignsOf m.logics, m.carries a.1 = true) : Circuit.ofModule m =
      .ok ⟨Circuit.widthsOf m, Circuit.assignsOf m.logics, Circuit.blocksOf m.logics⟩ := by
  unfold Circuit.ofModule
  simp only [contains_widthsOf]
  rw [List.find?_eq_none.2 fun a ha => by simp [h a ha]]

/-- Logic without a cycle that drives declared names only can be simulated. -/
theorem Simulator.start_ranked {m : Module} {rank : String → Nat}
    (hk : Ranked (Circuit.assignsOf m.logics) rank)
    (htargets : ∀ a ∈ Circuit.assignsOf m.logics, m.carries a.1 = true) :
    ∃ s, Simulator.start m = .ok (s, none) ∧ s.circuit =
      ⟨Circuit.widthsOf m, Circuit.assignsOf m.logics, Circuit.blocksOf m.logics⟩ := by
  have hc := Circuit.ofModule_ok htargets
  obtain ⟨s, hs⟩ := Simulator.settle_ranked (s := Simulator.initial
    ⟨Circuit.widthsOf m, Circuit.assignsOf m.logics, Circuit.blocksOf m.logics⟩) hk
  exact ⟨s, by rw [Simulator.start, hc, ← hs]; rfl, (Simulator.settle_frame hs).circuit⟩

/-- A run of a module whose logic has no cycle and drives declared names only does not fail, if the
environment drives declared names that the logic does not. -/
theorem simulate_ok {m : Module} {ds : List Drive} (rank : String → Nat)
    (hk : Ranked (Circuit.assignsOf m.logics) rank)
    (htargets : ∀ a ∈ Circuit.assignsOf m.logics, m.carries a.1 = true)
    (hds : ∀ d ∈ ds, ∀ x ∈ d, m.carries x.1 = true ∧
      ∀ a ∈ Circuit.assignsOf m.logics, a.1 ≠ x.1) : ∃ cs, simulate m ds = .ok cs := by
  obtain ⟨s, hstart, hcs⟩ := Simulator.start_ranked hk htargets
  have hk' : Ranked s.circuit.assigns rank := by
    rw [hcs]
    exact hk
  have hds' : ∀ d ∈ ds, ∀ x ∈ d,
      s.circuit.widths.contains x.1 = true ∧ s.circuit.isDriven x.1 = false := by
    intro d hd x hx
    obtain ⟨hdecl, hfree⟩ := hds d hd x hx
    rw [hcs]
    refine ⟨(contains_widthsOf m x.1).trans hdecl, List.any_eq_false.2 fun a ha he => ?_⟩
    exact hfree a ha (by simpa using he)
  obtain ⟨cs, hcycles⟩ := Simulator.cycles_ranked hk' hds'
  refine ⟨cs, ?_⟩
  simp only [simulate, hstart, bind, Except.bind]
  exact hcycles

end TaskLoom
