import TaskLoom.Proofs.Hdl.Wiring
import TaskLoom.Proofs.Simulation.FixedPoint

/-!
# Values fit their widths

`Literal.Confined v w`: cutting the value `v` to the width `w` takes nothing away.  Every operator
cuts its result, so over confined values every expression has a value that is confined to its own
width (`Expr.confined_eval`).  A simulator starts from zeros and cuts whatever it stores, so its
values are confined to the widths of their names after any calls, the failed ones included
(`Simulator.Masked.after`).
-/

namespace TaskLoom

namespace Literal

/-- A value has no bits outside a width. -/
def Confined (v : UInt64) (w : Int) : Prop := mask v w = v

theorem confined_mask (v : UInt64) (w : Int) : Confined (mask v w) w := mask_mask v w

theorem confined_zero (w : Int) : Confined 0 w := mask_zero w

theorem confined_bitOf (b : Bool) : Confined (bitOf b) 1 := mask_bitOf (by decide) b

theorem confined_word (v : UInt64) {w : Int} (h : 64 ≤ w) : Confined v w := if_pos (.inr h)

end Literal

open Literal

theorem BinaryOp.confined_apply (op : BinaryOp) (width : Int) (a b : UInt64) :
    Confined (op.apply width a b) (if op = .eq then 1 else width) := by
  cases op with
  | eq => exact confined_bitOf _
  | sub => exact confined_mask _ _
  | add => exact confined_mask _ _
  | shl => exact confined_mask _ _
  | unknown => exact confined_zero _

theorem Expr.width_binary (ρ : Env) (op : BinaryOp) (x y : Expr) :
    (Expr.binary op x y).width ρ = if op = .eq then 1 else max (x.width ρ) (y.width ρ) := by
  cases op <;> rfl

/-- Over confined values, the value of an expression is confined to its width. -/
theorem Expr.confined_eval {ρ : Env} (h : ∀ name, Confined (ρ.value name) (ρ.width name))
    (e : Expr) : Confined (e.eval ρ) (e.width ρ) := by
  cases e with
  | absent => exact confined_zero 64
  | ident name => exact h name
  | const w v =>
    rw [eval, width]
    split
    · exact confined_mask v w
    · exact confined_word _ (Int.le_refl 64)
  | literal s => exact confined_word _ (Int.le_refl 64)
  | unary op x =>
    cases op with
    | complement => exact confined_mask _ _
    | negation => exact confined_bitOf _
  | binary op x y =>
    rw [eval, width_binary]
    exact op.confined_apply _ _ _
  | all terms => exact confined_bitOf _

namespace Simulator

variable {s : Simulator}

/-- Every value is confined to the width of its name. -/
def Masked (s : Simulator) : Prop := ∀ name, Confined (s.get name) (s.circuit.width name)

theorem masked_initial (c : Circuit) : (initial c).Masked := by
  intro name
  have hzero : (initial c).get name = 0 := by simp [get, initial]
  rw [hzero]
  exact confined_zero _

namespace Masked

theorem put (h : s.Masked) (name : String) (v : UInt64) : (s.put name v).Masked := by
  intro r
  rw [get_put, circuit_put]
  split
  · rename_i he
    subst he
    exact confined_mask _ _
  · exact h r

theorem update (h : s.Masked) (target : String) (value : Expr) :
    (s.update target value).1.Masked := by
  intro r
  rw [update_get, update_circuit]
  split
  · rename_i he
    subst he
    exact confined_mask _ _
  · exact h r

theorem pass (h : s.Masked) (as : List (String × Expr)) : (s.pass as).1.Masked := by
  induction as generalizing s with
  | nil => exact h
  | cons a as ih => exact ih (h.update a.1 a.2)

/-- Settling keeps the invariant also if it does not come to an end. -/
theorem settleWithin (h : s.Masked) (n : Nat) : (s.settleWithin n).1.Masked := by
  induction n generalizing s with
  | zero => exact h
  | succ n ih =>
    have hpass := h.pass s.circuit.assigns
    rw [Simulator.settleWithin]
    split
    all_goals
      rename_i hs₁
      rw [hs₁] at hpass
    · exact hpass
    · exact ih hpass

theorem settle (h : s.Masked) : s.settle.1.Masked := h.settleWithin _

theorem clock (h : s.Masked) : s.clock.Masked := by
  intro r
  rw [get_clock, circuit_clock]
  cases lastWrite r (s.circuit.blocks.flatMap (Stmt.allWrites s.env)) with
  | none => exact h r
  | some v => exact confined_mask _ _

theorem call (h : s.Masked) (c : Call) : (s.call c).1.Masked := by
  cases c with
  | set name v =>
    simp only [Simulator.call, Simulator.set]
    split
    · exact h
    · split
      · exact h
      · exact (h.put name v).settle
  | settle => exact h.settle
  | step => exact h.clock.settle

theorem after (h : s.Masked) (cs : List Call) : (s.after cs).Masked := by
  induction cs generalizing s with
  | nil => exact h
  | cons c cs ih => exact ih (h.call c)

end Masked

theorem start_ok {m : Module} {e : Option SimulationError} (h : start m = .ok (s, e)) :
    s.Masked ∧ s.circuit.widths = Circuit.widthsOf m := by
  unfold start at h
  cases hc : Circuit.ofModule m with
  | error e => rw [hc] at h; cases h
  | ok c =>
    rw [hc] at h
    have hs : (initial c).settle = (s, e) := Except.ok.inj h
    have hq : Quiet (initial c) (initial c).settle.1 := settleWithin_quiet _
    have hm := (masked_initial c).settle
    rw [hs] at hq hm
    refine ⟨hm, ?_⟩
    rw [hq.circuit, Circuit.ofModule_eq hc]
    rfl

end Simulator

/-- After a start and any calls, whether they failed or not, every value is the same when it is cut
to the width of its name, a name that is not declared has the value zero, and the value of every
expression is the same when it is cut to the width of the expression. -/
theorem values_fit_widths {m : Module} {s : Simulator} {e : Option SimulationError}
    (h : Simulator.start m = .ok (s, e)) (cs : List Call) :
    (∀ name, (s.after cs).get name =
      mask ((s.after cs).get name) ((Circuit.widthsOf m).getD name 0)) ∧
    (∀ name, m.carries name = false → (s.after cs).get name = 0) ∧
    ∀ x : Expr, x.eval (s.after cs).env =
      mask (x.eval (s.after cs).env) (x.width (s.after cs).env) := by
  obtain ⟨hstart, hwidths⟩ := Simulator.start_ok h
  have hmasked := hstart.after cs
  have hwidth (name : String) :
      (s.after cs).circuit.width name = (Circuit.widthsOf m).getD name 0 := by
    rw [Simulator.after_circuit, Circuit.width, hwidths]
  have hvalue (name : String) : (s.after cs).get name =
      mask ((s.after cs).get name) ((Circuit.widthsOf m).getD name 0) := by
    rw [← hwidth]
    exact (hmasked name).symm
  refine ⟨hvalue, fun name hname => ?_, fun x => ?_⟩
  · have hzero : (Circuit.widthsOf m).getD name 0 = 0 :=
      Std.HashMap.getD_eq_fallback_of_contains_eq_false (by rw [contains_widthsOf, hname])
    rw [hvalue, hzero]
    simp [mask]
  · exact (Expr.confined_eval (fun name => hmasked name) x).symm

/-- A wire of four bits that is to be its own complement, which never settles. -/
def flickering : Module where
  name := "Flickering"
  signals := [⟨"n", .wire, BitRange.bits 4, []⟩]
  logics := [.assign "n" (.unary .complement (.ident "n"))]

theorem flickering_width : (Circuit.widthsOf flickering).getD "n" 0 = 4 := by
  have hbits : BitRange.simulatedWidth (BitRange.bits 4) = 4 := rfl
  simp [Circuit.widthsOf, flickering, hbits]

/-- No word of four bits is its own complement, with which it has no bits in common. -/
theorem ne_complement (v : UInt64) : v ≠ mask (mask (~~~v) 4) 4 := by
  intro h
  have hv : v = ~~~v &&& 15 := h.trans (mask_mask _ 4)
  have hzero : v = 0 := by
    calc
      v = v &&& v := UInt64.and_self.symm
      _ = v &&& (~~~v &&& 15) := congrArg (v &&& ·) hv
      _ = 0 := by rw [← UInt64.and_assoc, UInt64.and_not_self, UInt64.zero_and]
  rw [hzero] at hv
  exact absurd hv (by decide)

theorem flickering_not_settled {s : Simulator} (h : s.circuit = ⟨Circuit.widthsOf flickering,
    Circuit.assignsOf flickering.logics, Circuit.blocksOf flickering.logics⟩) : ¬ s.Settled := by
  intro hs
  have hn := hs ("n", .unary .complement (.ident "n")) (by rw [h]; exact .head _)
  simp only [Expr.eval, Expr.width, Simulator.env, Circuit.width, h, flickering_width] at hn
  exact ne_complement _ hn

theorem flickering_start : ∃ s e, Simulator.start flickering = .ok (s, e) ∧ e ≠ none := by
  have hcircuit := Circuit.ofModule_ok (m := flickering) (by decide)
  have hstart := congrArg (Except.map fun c => (Simulator.initial c).settle) hcircuit
  refine ⟨_, _, hstart, fun hnone => ?_⟩
  exact flickering_not_settled (Simulator.settleWithin_quiet _).circuit
    (Simulator.settle_settled (Prod.ext rfl hnone))

theorem values_fit_widths_flickering : ∃ s e, Simulator.start flickering = .ok (s, e) ∧ e ≠ none ∧
    (s.after [.set "n" 3, .step]).get "n" =
      Literal.mask ((s.after [.set "n" 3, .step]).get "n") 4 ∧
    (s.after [.set "n" 3, .step]).get "missing" = 0 := by
  obtain ⟨s, e, hstart, hfails⟩ := flickering_start
  obtain ⟨hvalues, hundeclared, -⟩ := values_fit_widths hstart [.set "n" 3, .step]
  have hn := hvalues "n"
  rw [flickering_width] at hn
  exact ⟨s, e, hstart, hfails, hn, hundeclared "missing" (by decide)⟩

end TaskLoom
