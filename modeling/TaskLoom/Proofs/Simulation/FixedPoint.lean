import TaskLoom.Proofs.Simulation.Reordering

/-!
# Settling computes the fixed point

A simulation that settles without a failure solves its assignments, whatever they are.  Where the
targets are different and have no cycle, the undriven values have one solution, and settling reaches
it from any values of the targets and in any order of the assignments
(`settle_unique_solution`).
-/

namespace TaskLoom

namespace Simulator

variable {s : Simulator}

theorem update_cycle {name : String} {value : Expr} : (s.update name value).1.cycle = s.cycle := by
  by_cases h : s.get name = Literal.mask (value.eval s.env) (s.circuit.width name)
  · rw [update_of_eq h]
  · rw [update_of_ne h]

theorem pass_cycle (as : List (String × Expr)) : (s.pass as).1.cycle = s.cycle := by
  induction as generalizing s with
  | nil => rfl
  | cons a as ih =>
    show ((s.update a.1 a.2).1.pass as).1.cycle = s.cycle
    rw [ih, update_cycle]

theorem settleWithin_cycle (n : Nat) : (s.settleWithin n).1.cycle = s.cycle := by
  induction n generalizing s with
  | zero => rfl
  | succ n ih =>
    have hp : (s.pass s.circuit.assigns).1.cycle = s.cycle := pass_cycle _
    rw [settleWithin]
    split <;> rename_i s₁ hs₁ <;> rw [hs₁] at hp
    · exact hp
    · exact ih.trans hp

/-- The simulator after some calls, failed ones included. -/
def after (s : Simulator) (cs : List Call) : Simulator := cs.foldl (fun s c => (s.call c).1) s

theorem call_circuit (c : Call) : (s.call c).1.circuit = s.circuit := by
  cases c with
  | set name v =>
    simp only [call, set]
    split
    · rfl
    · split
      · rfl
      · exact (settleWithin_quiet _).circuit
  | settle => exact (settleWithin_quiet _).circuit
  | step => exact (settleWithin_quiet _).circuit.trans circuit_clock

theorem after_circuit (cs : List Call) : (s.after cs).circuit = s.circuit := by
  induction cs generalizing s with
  | nil => rfl
  | cons c cs ih => exact (ih (s := (s.call c).1)).trans (call_circuit c)

/-- The values of a simulator that runs acyclic logic, once they have settled. -/
theorem exists_solution (hd : (s.circuit.assigns.map Prod.fst).Nodup)
    (h : NoCycle s.circuit.assigns) :
    ∃ v, s.circuit.Solves v ∧ ∀ r, s.circuit.isDriven r = false → v r = s.get r := by
  obtain ⟨rank, hk⟩ := exists_ranked hd h
  obtain ⟨s', hs'⟩ := settle_ranked hk
  have hq := settle_frame hs'
  have hsolves : s'.circuit.Solves s'.get := settle_settled hs'
  exact ⟨s'.get, hq.circuit ▸ hsolves, hq.get⟩

/-- Settling reaches a solution over the undriven values from any values of the targets. -/
theorem settle_eq_solution (hd : (s.circuit.assigns.map Prod.fst).Nodup)
    (h : NoCycle s.circuit.assigns) {v : String → UInt64} (hv : s.circuit.Solves v) {t : Simulator}
    (hc : s.circuit.Reordered t.circuit) (ht : ∀ r, s.circuit.isDriven r = false → t.get r = v r) :
    ∃ t', t.settle = (t', none) ∧ t'.get = v := by
  obtain ⟨rank, hk⟩ := exists_ranked hd h
  obtain ⟨t', ht'⟩ := settle_ranked (hk.of_perm hc.assigns)
  have hq := settle_frame ht'
  have hsolves : t.circuit.Solves t'.get := hq.circuit ▸ settle_settled ht'
  refine ⟨t', ht', Circuit.Solves.unique hk hv (.of_reordered hc hsolves) fun r hr => ?_⟩
  rw [hq.get r ((hc.isDriven r).trans hr), ht r hr]

end Simulator

/-- Settling changes assignment targets only, and where it does not fail, every target has the
masked value of its right-hand side.  Different targets without a cycle have exactly one solution
over the undriven values; from any values of the targets and in any order of the assignments
settling does not fail, and ends in that solution. -/
theorem settle_unique_solution (s : Simulator) :
    Simulator.Quiet s s.settle.1 ∧ s.settle.1.cycle = s.cycle ∧
    (∀ s', s.settle = (s', none) → ∀ a ∈ s'.circuit.assigns,
      s'.get a.1 = Literal.mask (a.2.eval s'.env) (s'.circuit.width a.1)) ∧
    ((s.circuit.assigns.map Prod.fst).Nodup → NoCycle s.circuit.assigns →
      ∃ v, (s.circuit.Solves v ∧ ∀ r, s.circuit.isDriven r = false → v r = s.get r) ∧
        (∀ w, s.circuit.Solves w → (∀ r, s.circuit.isDriven r = false → w r = s.get r) → w = v) ∧
        ∀ t : Simulator, s.circuit.Reordered t.circuit →
          (∀ r, s.circuit.isDriven r = false → t.get r = s.get r) →
          ∃ t', t.settle = (t', none) ∧ t'.get = v) := by
  refine ⟨Simulator.settleWithin_quiet _, Simulator.settleWithin_cycle _,
    fun s' hs' => Simulator.settle_settled hs', fun hd h => ?_⟩
  obtain ⟨v, hv, hfree⟩ := Simulator.exists_solution hd h
  obtain ⟨rank, hk⟩ := exists_ranked hd h
  refine ⟨v, ⟨hv, hfree⟩, fun w hw hw' => hv.unique hk hw fun r hr => ?_, fun t hc ht => ?_⟩
  · rw [hw' r hr, hfree r hr]
  · exact Simulator.settle_eq_solution hd h hv hc fun r hr => (ht r hr).trans (hfree r hr).symm

/-- The shown counter at 3, with a value shown that is out of date. -/
def staleCounter : Simulator :=
  ((Simulator.initial ⟨Circuit.widthsOf shownCounter, Circuit.assignsOf shownCounter.logics,
    Circuit.blocksOf shownCounter.logics⟩).put "n" 3).put "shown" 9

/-- The assignments of the counter in the other order: the first pass shows what was there
before. -/
def turnedCounter : Simulator :=
  { staleCounter with circuit :=
    { staleCounter.circuit with assigns := staleCounter.circuit.assigns.reverse } }

theorem staleCounter_width : staleCounter.circuit.width "n" = 4 ∧
    staleCounter.circuit.width "next" = 4 ∧ staleCounter.circuit.width "shown" = 4 ∧
    staleCounter.circuit.width "go" = 1 := by
  have one : BitRange.simulatedWidth none = 1 := rfl
  have four : BitRange.simulatedWidth (BitRange.bits 4) = 4 := rfl
  simp [staleCounter, Simulator.initial, Circuit.width, Circuit.widthsOf, shownCounter,
    Std.HashMap.getD_insert, one, four]

theorem staleCounter_get : staleCounter.get "n" = 3 ∧ staleCounter.get "go" = 0 := by
  have hn : staleCounter.get "n" = Literal.mask 3 (staleCounter.circuit.width "n") := by
    simp [staleCounter, Simulator.get_put]
  rw [staleCounter_width.1] at hn
  have hgo : staleCounter.get "go" = 0 := by
    simp only [staleCounter, Simulator.get_put]
    simp [Simulator.get, Simulator.initial]
  exact ⟨hn, hgo⟩

theorem settle_unique_solution_counter :
    (staleCounter.circuit.assigns.map Prod.fst).Nodup ∧ NoCycle staleCounter.circuit.assigns ∧
    ∃ t', turnedCounter.settle = (t', none) ∧ t'.get "next" = 3 ∧ t'.get "shown" = 12 := by
  have hdistinct : (staleCounter.circuit.assigns.map Prod.fst).Nodup := by decide
  have hranked : Ranked staleCounter.circuit.assigns fun x => if x = "shown" then 1 else 0 :=
    ⟨hdistinct, by decide, by decide⟩
  obtain ⟨-, -, -, hacyclic⟩ := settle_unique_solution staleCounter
  obtain ⟨v, ⟨hv, hfree⟩, -, hsettle⟩ := hacyclic hdistinct hranked.noCycle
  obtain ⟨t', ht', rfl⟩ := hsettle turnedCounter
    ⟨rfl, List.reverse_perm _, List.Perm.refl _⟩ fun _ _ => rfl
  obtain ⟨width_n, width_next, width_shown, width_go⟩ := staleCounter_width
  have n_eq : t'.get "n" = 3 := (hfree "n" (by decide)).trans staleCounter_get.1
  have go_eq : t'.get "go" = 0 := (hfree "go" (by decide)).trans staleCounter_get.2
  have next_eq : t'.get "next" = 3 := by
    have h := hv ("next", .binary .add (.ident "n") (.ident "go")) (.tail _ (.head _))
    simp only [Expr.eval, Expr.width, n_eq, go_eq, width_n, width_go, width_next] at h
    exact h
  have shown_eq : t'.get "shown" = 12 := by
    have h := hv ("shown", .unary .complement (.ident "next")) (.head _)
    simp only [Expr.eval, Expr.width, next_eq, width_next, width_shown] at h
    exact h
  exact ⟨hdistinct, hranked.noCycle, t', ht', next_eq, shown_eq⟩

end TaskLoom
