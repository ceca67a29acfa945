import TaskLoom.Simulation.Basic

/-!
# What settling keeps and what it reaches

`Simulator.Settled`: every continuous assignment holds, that is, its target has the value of its
right-hand side cut to the width of the target.  A simulation that settles without a failure is
`Settled` (`settle_settled`), and settling changes the targets of assignments only (`settle_frame`).
`Simulator.Quiet` collects what never changes along the way: the circuit and the undriven names.
-/

namespace TaskLoom

namespace Literal

theorem mask_mask (v : UInt64) (w : Int) : mask (mask v w) w = mask v w := by
  unfold mask
  split
  · rfl
  · rw [UInt64.and_assoc, UInt64.and_self]

theorem mask_zero (w : Int) : mask 0 w = 0 := by
  unfold mask
  split
  · rfl
  · exact UInt64.zero_and

theorem toNat_mask (v : UInt64) {w : Nat} (hw : w ≤ 64) :
    (mask v w).toNat = v.toNat % Nat.pow 2 w := by
  unfold mask
  split
  · have h64 : w = 64 := by omega
    rw [h64]
    exact (Nat.mod_eq_of_lt v.toNat_lt).symm
  · have hlt : w < 64 := by omega
    have hone : ((1 <<< w.toUInt64) - 1 : UInt64).toNat = Nat.pow 2 w - 1 := by
      have all : ∀ k : Fin 64,
          ((1 <<< k.val.toUInt64) - 1 : UInt64).toNat = Nat.pow 2 k.val - 1 := by decide
      exact all ⟨w, hlt⟩
    rw [UInt64.toNat_and, Int.toNat_natCast, hone]
    exact Nat.and_two_pow_sub_one_eq_mod _ _

theorem mask_one (v : UInt64) : mask v 1 = v &&& 1 := rfl

/-- A width of one bit or more keeps the truth values. -/
theorem mask_bitOf {w : Int} (hw : w ≠ 0) (b : Bool) : mask (bitOf b) w = bitOf b := by
  unfold mask
  split
  · rfl
  · rename_i h
    have odd : ∀ k : Fin 64, k ≠ 0 → (1 : UInt64) &&& ((1 <<< k.val.toUInt64) - 1) = 1 := by decide
    have hk : w.toNat < 64 := by omega
    cases b
    · exact UInt64.zero_and
    · exact odd ⟨w.toNat, hk⟩ fun he => by have := congrArg Fin.val he; simp at this; omega

end Literal

namespace Simulator

variable {s s' : Simulator} {name : String}

@[simp] theorem circuit_put (v : UInt64) : (s.put name v).circuit = s.circuit := rfl

theorem get_put (v : UInt64) (r : String) :
    (s.put name v).get r = if name = r then Literal.mask v (s.circuit.width name) else s.get r := by
  simp [get, put, Std.HashMap.getD_insert]

theorem get_put_of_ne {r : String} (v : UInt64) (h : name ≠ r) :
    (s.put name v).get r = s.get r := by
  rw [get_put, if_neg h]

/-- Every continuous assignment holds. -/
def Settled (s : Simulator) : Prop :=
  ∀ a ∈ s.circuit.assigns, s.get a.1 = Literal.mask (a.2.eval s.env) (s.circuit.width a.1)

/-- From `s` to `s'` neither the circuit nor a name without an assignment changed. -/
structure Quiet (s s' : Simulator) : Prop where
  circuit : s'.circuit = s.circuit
  get : ∀ r, s.circuit.isDriven r = false → s'.get r = s.get r

theorem Quiet.refl (s : Simulator) : Quiet s s := ⟨rfl, fun _ _ => rfl⟩

theorem Quiet.trans {s'' : Simulator} (h : Quiet s s') (h' : Quiet s' s'') : Quiet s s'' :=
  ⟨h'.circuit.trans h.circuit, fun r hr =>
    (h'.get r (by rw [h.circuit]; exact hr)).trans (h.get r hr)⟩

theorem update_of_eq {value : Expr}
    (h : s.get name = Literal.mask (value.eval s.env) (s.circuit.width name)) :
    s.update name value = (s, false) :=
  if_pos h

theorem update_of_ne {value : Expr}
    (h : s.get name ≠ Literal.mask (value.eval s.env) (s.circuit.width name)) :
    s.update name value =
      ({ s with values :=
          s.values.insert name (Literal.mask (value.eval s.env) (s.circuit.width name)) }, true) :=
  if_neg h

theorem update_unchanged_iff {value : Expr} :
    (s.update name value).2 = false ↔
      s.get name = Literal.mask (value.eval s.env) (s.circuit.width name) := by
  by_cases h : s.get name = Literal.mask (value.eval s.env) (s.circuit.width name)
  · simp [update_of_eq h, h]
  · simp [update_of_ne h, h]

theorem update_circuit {value : Expr} : (s.update name value).1.circuit = s.circuit := by
  by_cases h : s.get name = Literal.mask (value.eval s.env) (s.circuit.width name)
  · rw [update_of_eq h]
  · rw [update_of_ne h]

theorem update_get {value : Expr} {r : String} :
    (s.update name value).1.get r =
      if name = r then Literal.mask (value.eval s.env) (s.circuit.width name) else s.get r := by
  by_cases h : s.get name = Literal.mask (value.eval s.env) (s.circuit.width name)
  · rw [update_of_eq h]
    split
    · subst r; exact h
    · rfl
  · rw [update_of_ne h]
    simp [get, Std.HashMap.getD_insert]

theorem update_quiet {value : Expr} (h : s.circuit.isDriven name = true) :
    Quiet s (s.update name value).1 :=
  ⟨update_circuit, fun r hr => by
    have hne : name ≠ r := fun he => by simp [← he, h] at hr
    rw [update_get, if_neg hne]⟩

theorem isDriven_of_mem {c : Circuit} {a : String × Expr} (h : a ∈ c.assigns) :
    c.isDriven a.1 = true :=
  List.any_eq_true.2 ⟨a, h, beq_self_eq_true _⟩

theorem pass_quiet (as : List (String × Expr)) (h : ∀ a ∈ as, s.circuit.isDriven a.1 = true) :
    Quiet s (s.pass as).1 := by
  induction as generalizing s with
  | nil => exact .refl s
  | cons a as ih =>
    have h₁ : Quiet s (s.update a.1 a.2).1 := update_quiet (h a (by simp))
    refine h₁.trans (ih fun b hb => ?_)
    rw [h₁.circuit]
    exact h b (by simp [hb])

/-- A pass without a change leaves the state as it was, and every assignment of it holds. -/
theorem pass_unchanged (as : List (String × Expr)) (h : (s.pass as).2 = false) :
    (s.pass as).1 = s ∧
      ∀ a ∈ as, s.get a.1 = Literal.mask (a.2.eval s.env) (s.circuit.width a.1) := by
  induction as generalizing s with
  | nil => simp [pass]
  | cons a as ih =>
    have h' : ((s.update a.1 a.2).2 || ((s.update a.1 a.2).1.pass as).2) = false := h
    obtain ⟨hu, hp⟩ := Bool.or_eq_false_iff.1 h'
    have hs : (s.update a.1 a.2).1 = s := by rw [update_of_eq (update_unchanged_iff.1 hu)]
    rw [hs] at hp
    obtain ⟨hs', hall⟩ := ih hp
    refine ⟨?_, fun b hb => ?_⟩
    · show ((s.update a.1 a.2).1.pass as).1 = s
      rw [hs]; exact hs'
    · rcases List.mem_cons.1 hb with rfl | hb
      · exact update_unchanged_iff.1 hu
      · exact hall b hb

/-- Settling changes the targets of assignments only, whether it comes to an end or not. -/
theorem settleWithin_quiet (n : Nat) : Quiet s (s.settleWithin n).1 := by
  induction n generalizing s with
  | zero => exact .refl s
  | succ n ih =>
    have hq : Quiet s (s.pass s.circuit.assigns).1 :=
      pass_quiet _ fun a ha => isDriven_of_mem ha
    rw [settleWithin]
    split <;> rename_i s₁ hs₁ <;> rw [hs₁] at hq
    · exact hq
    · exact hq.trans ih

theorem settleWithin_settled {n : Nat} (h : s.settleWithin n = (s', none)) : s'.Settled := by
  induction n generalizing s with
  | zero => simp [settleWithin] at h
  | succ n ih =>
    rw [settleWithin] at h
    split at h
    · rename_i s₁ hs₁
      obtain rfl : s₁ = s' := congrArg Prod.fst h
      obtain ⟨he, hall⟩ := pass_unchanged s.circuit.assigns (by rw [hs₁])
      rw [hs₁] at he
      obtain rfl : s₁ = s := he
      exact hall
    · exact ih h

theorem settle_frame (h : s.settle = (s', none)) : Quiet s s' := by
  have hq : Quiet s s.settle.1 := settleWithin_quiet _
  rwa [h] at hq

theorem settle_settled (h : s.settle = (s', none)) : s'.Settled := settleWithin_settled h

end Simulator

end TaskLoom
