import TaskLoom.Proofs.Composite.Layout
import TaskLoom.Proofs.Simulation.Delay

/-!
# The moves of the controllers

What one cycle does to the registers of the controllers of a composite, in terms of the values of
names along a run.  A controller sees everything through pipelines, that is, late: `Seen level P t`
says that `P` held `level` cycles before `t`.

`Controller` lists the moves of the controller of the composite, `Handshake` those of the controller
of an instance.  Main statements: every run of a generated module makes these moves
(`Layout.controls`, `Layout.handshakes`).
-/

namespace TaskLoom

/-- What is seen through a pipeline: `P` held `level` cycles earlier. -/
def Seen (level : Nat) (P : Nat → Prop) (t : Nat) : Prop := level ≤ t ∧ P (t - level)

/-- The lowest bit of a port is set. -/
def Up (v : Nat → String → UInt64) (port : String) (t : Nat) : Prop :=
  Literal.mask (v t port) 1 ≠ 0

section
variable (level n : Nat) (v : Nat → String → UInt64)

/-- The moves of the controller of a composite in the first `n` cycles. -/
structure Controller (waited : List String) : Prop where
  first : v 0 stateReg = 0
  code : ∀ t < n, v t stateReg = 0 ∨ v t stateReg = 1 ∨ v t stateReg = 2 ∨ v t stateReg = 3
  released : ∀ t < n, v t resetPort = 1 → v t resetWire = 0
  reset : ∀ t, t + 1 < n → v t resetWire ≠ 0 → v (t + 1) stateReg = 0
  idle : ∀ t, t + 1 < n → v t resetWire = 0 → v t stateReg = 0 →
    Seen level (Up v startPort) t ∧ v (t + 1) stateReg = 1 ∨
    ¬ Seen level (Up v startPort) t ∧ v (t + 1) stateReg = 0
  running : ∀ t, t + 1 < n → v t resetWire = 0 → v t stateReg = 1 →
    (∀ i ∈ waited, Seen level (fun u => v u (instanceState i) = 2) t) ∧ v (t + 1) stateReg = 2 ∧
      (v (t + 1) countdownReg).toNat = level - 1 ∨
    ¬ (∀ i ∈ waited, Seen level (fun u => v u (instanceState i) = 2) t) ∧ v (t + 1) stateReg = 1
  drain : ∀ t, t + 1 < n → v t resetWire = 0 → v t stateReg = 2 →
    v (t + 1) stateReg = (if 0 < level then 3 else 0) ∧ v (t + 1) countdownReg = v t countdownReg
  waiting : ∀ t, t + 1 < n → v t resetWire = 0 → v t stateReg = 3 →
    (v t countdownReg).toNat = 0 ∧ v (t + 1) stateReg = 0 ∨
    (v t countdownReg).toNat = (v (t + 1) countdownReg).toNat + 1 ∧ v (t + 1) stateReg = 3

/-- The moves of the controller of an instance in the first `n` cycles. -/
structure Handshake (i : String) : Prop where
  first : v 0 (instanceState i) = 0
  code : ∀ t < n, v t (instanceState i) = 0 ∨ v t (instanceState i) = 1 ∨
    v t (instanceState i) = 2 ∨ v t (instanceState i) = 3
  reset : ∀ t, t + 1 < n → ¬ Seen level (Up v resetPort) t → v (t + 1) (instanceState i) = 0
  idle : ∀ t, t + 1 < n → Seen level (Up v resetPort) t → v t (instanceState i) = 0 →
    Seen level (Up v startPort) t ∧ v (t + 1) (instanceState i) = 1 ∨
    ¬ Seen level (Up v startPort) t ∧ v (t + 1) (instanceState i) = 0
  started : ∀ t, t + 1 < n → Seen level (Up v resetPort) t → v t (instanceState i) = 1 →
    v t (instanceReady i) = 0 ∧ v (t + 1) (instanceState i) = 1 ∨
    v t (instanceReady i) ≠ 0 ∧ v t (instanceDone i) ≠ 0 ∧ v (t + 1) (instanceState i) = 2 ∨
    v t (instanceReady i) ≠ 0 ∧ v t (instanceDone i) = 0 ∧ v (t + 1) (instanceState i) = 3
  waiting : ∀ t, t + 1 < n → Seen level (Up v resetPort) t → v t (instanceState i) = 3 →
    v t (instanceDone i) ≠ 0 ∧ v (t + 1) (instanceState i) = 2 ∨
    v t (instanceDone i) = 0 ∧ v (t + 1) (instanceState i) = 3
  finished : ∀ t, t + 1 < n → Seen level (Up v resetPort) t → v t (instanceState i) = 2 →
    Seen level (fun u => v u stateReg = 2) t ∧ v (t + 1) (instanceState i) = 0 ∨
    ¬ Seen level (fun u => v u stateReg = 2) t ∧ v (t + 1) (instanceState i) = 2
  start : ∀ t < n, v t (instanceStart i) = bitOf (v t (instanceState i) == 1)

end

theorem range_make (name : String) (level : Nat) :
    BitRange.simulatedWidth (Pipeline.make name level 1).range = 1 := rfl

@[simp] theorem eval_state00 (ρ : Env) : (stateCode 0).eval ρ = 0 := rfl

@[simp] theorem eval_state01 (ρ : Env) : (stateCode 1).eval ρ = 1 := rfl

@[simp] theorem eval_state10 (ρ : Env) : (stateCode 2).eval ρ = 2 := rfl

@[simp] theorem eval_state11 (ρ : Env) : (stateCode 3).eval ρ = 3 := rfl

/-- The complement of a set bit has its lowest bit clear, whatever it was cut to. -/
theorem mask_complement_one (w : Int) : Literal.mask (Literal.mask (~~~ 1) w) 1 = 0 := by
  rw [Literal.mask_one]
  unfold Literal.mask
  split
  · rfl
  · rw [UInt64.and_assoc, UInt64.and_comm _ 1, ← UInt64.and_assoc]
    exact UInt64.zero_and

theorem mask_two_cases (x : UInt64) : Literal.mask x 2 = 0 ∨ Literal.mask x 2 = 1 ∨
    Literal.mask x 2 = 2 ∨ Literal.mask x 2 = 3 := by
  have h : (Literal.mask x 2).toNat = x.toNat % 4 := Literal.toNat_mask x (w := 2) (by decide)
  have hlt : x.toNat % 4 < 4 := Nat.mod_lt _ (by decide)
  simp only [← UInt64.toNat_inj, h]
  simp
  omega

section
variable {level : Nat} {waited : List String} {items : List Item} {c : Circuit}
  {cs : List Simulator} {t : Nat}

theorem Trace.seen (h : Trace items c cs) {p : Pipeline} {seed : Expr} (hp : p.items seed ⊆ items)
    (ht : t < cs.length) : valueAt cs t p.last ≠ 0 ↔ Seen p.level (fun u =>
      Literal.mask (seed.eval (envAt c cs u)) (BitRange.simulatedWidth p.range) ≠ 0) t := by
  rw [h.last_stage hp ht, Seen]
  split
  · rename_i hl
    rw [h.first_stage hp (by omega)]
    simp [hl]
  · rename_i hl
    simp [hl]

theorem mask_equals (ρ : Env) (name : String) (code : UInt64) :
    Literal.mask ((Expr.equals (.ident name) (stateCode code)).eval ρ) 1 ≠ 0 ↔
      ρ.value name = Literal.mask code 2 := by
  show Literal.mask (bitOf (ρ.value name == Literal.mask code 2)) 1 ≠ 0 ↔ _
  rw [Literal.mask_bitOf (by decide)]
  unfold bitOf
  by_cases h : ρ.value name = Literal.mask code 2 <;> simp [h]

theorem Layout.start_seen (h : Layout level waited items) (hc : Trace items c cs)
    (ht : t < cs.length) : valueAt cs t (startPipeline level).last ≠ 0 ↔
      Seen level (Up (valueAt cs) startPort) t :=
  hc.seen h.start ht

theorem Layout.isDone_seen (h : Layout level waited items) (hc : Trace items c cs)
    (ht : t < cs.length) {i : String} (hi : i ∈ waited) :
    valueAt cs t (isDoneTap level i).last ≠ 0 ↔
      Seen level (fun u => valueAt cs u (instanceState i) = 2) t := by
  have hp : (isDoneTap level i).items (.equals (.ident (instanceState i)) state10) ⊆ items :=
    fun x hx => h.handshake i hi (by simp [handshakeItems, tapItems, hx])
  rw [hc.seen hp ht]
  exact and_congr_right fun _ => mask_equals _ _ _

theorem Layout.reset_seen (h : Layout level waited items) (hc : Trace items c cs)
    (ht : t < cs.length) {i : String} (hi : i ∈ waited) :
    valueAt cs t (resetTap level i).last ≠ 0 ↔ Seen level (Up (valueAt cs) resetPort) t :=
  hc.seen (h.resets i hi) ht

theorem Layout.startTap_seen (h : Layout level waited items) (hc : Trace items c cs)
    (ht : t < cs.length) {i : String} (hi : i ∈ waited) :
    valueAt cs t (startTap level i).last ≠ 0 ↔ Seen level (Up (valueAt cs) startPort) t := by
  have hp : (startTap level i).items (.ident (startPipeline level).first) ⊆ items :=
    fun x hx => h.handshake i hi (by simp [handshakeItems, tapItems, hx])
  rw [hc.seen hp ht]
  refine and_congr_right fun _ => ?_
  show Literal.mask (valueAt cs (t - level) (startPipeline level).first) 1 ≠ 0 ↔ _
  rw [hc.first_stage h.start (by omega)]
  exact Iff.of_eq (congrArg (· ≠ 0) (Literal.mask_mask _ _))

theorem Layout.doneTap_seen (h : Layout level waited items) (hc : Trace items c cs)
    (ht : t < cs.length) {i : String} (hi : i ∈ waited) :
    valueAt cs t (doneTap level i).last ≠ 0 ↔
      Seen level (fun u => valueAt cs u stateReg = 2) t := by
  have hp : (doneTap level i).items (.ident (donePipeline level).first) ⊆ items :=
    fun x hx => h.handshake i hi (by simp [handshakeItems, tapItems, hx])
  rw [hc.seen hp ht]
  refine and_congr_right fun _ => ?_
  show Literal.mask (valueAt cs (t - level) (donePipeline level).first) 1 ≠ 0 ↔ _
  rw [hc.first_stage h.done (by omega), donePipeline, range_make, Literal.mask_mask]
  exact mask_equals _ _ _

end

/-! ### The controller of the composite -/

theorem holdsAll_idents (ρ : Env) (names : List String) :
    Expr.holdsAll ρ (names.map .ident) = true ↔ ∀ x ∈ names, ρ.value x ≠ 0 := by
  induction names with
  | nil => simp [Expr.holdsAll]
  | cons x names ih => simp [Expr.holdsAll, Expr.eval, ih]

/-- What the controller writes when a run ends. -/
def drainWrites (level : Nat) : List (String × UInt64) :=
  [(stateReg, 2),
   (countdownReg, Literal.mask (drainCycles level).toUInt64 (countdownWidth level))]

theorem allWrites_runningBody (ρ : Env) (level : Nat) (finished : List Pipeline) :
    Stmt.allWrites ρ (runningBody level finished) =
      if Expr.holdsAll ρ (finished.map fun q => .ident q.last) then drainWrites level else [] := by
  have hdrain : Stmt.allWrites ρ (enterDrain level) = drainWrites level := rfl
  unfold runningBody
  cases finished with
  | nil => exact hdrain
  | cons q qs =>
    simp only [List.isEmpty_cons, Bool.false_eq_true, if_false, Stmt.allWrites, Stmt.writes,
      List.append_nil, Expr.eval, bitOf]
    rw [hdrain]
    simp

theorem allWrites_drainBody (ρ : Env) (level : Nat) :
    Stmt.allWrites ρ (drainBody level) =
      if ρ.value countdownReg = 0 then [(stateReg, 0)]
      else [(countdownReg,
        Literal.mask (ρ.value countdownReg - Literal.mask 1 (countdownWidth level))
          (max (ρ.width countdownReg) (countdownWidth level)))] := by
  have hpos : (0 : Int) < countdownWidth level := by
    have : 1 ≤ countdownWidth level := Nat.le_max_left 1 _
    omega
  simp only [drainBody, Stmt.allWrites, Stmt.writes, Expr.eval, BinaryOp.apply, Expr.width,
    Literal.mask_zero, eval_state00, setState, List.append_nil, if_pos hpos]
  by_cases h : ρ.value countdownReg = 0 <;> simp [h, bitOf]

/-- What the controller writes outside reset, by its state. -/
theorem writes_controlStep (ρ : Env) (level : Nat) (finished : List Pipeline) :
    Stmt.writes ρ (controlStep level finished) =
      if ρ.value stateReg = 0 then
        if ρ.value (startPipeline level).last ≠ 0 then [(stateReg, 1)] else []
      else if ρ.value stateReg = 1 then
        if Expr.holdsAll ρ (finished.map fun q => .ident q.last) then drainWrites level else []
      else if ρ.value stateReg = 2 then [(stateReg, if 0 < level then 3 else 0)]
      else if ρ.value stateReg = 3 then Stmt.allWrites ρ (drainBody level)
      else [] := by
  simp only [controlStep, Stmt.writes, Stmt.armWrites, Stmt.allWrites, Expr.eval, setState,
    allWrites_runningBody, eval_state00, eval_state01, eval_state10, eval_state11, List.append_nil,
    beq_iff_eq, bne_iff_ne, eq_comm (b := ρ.value stateReg)]
  have hlevel : (if 0 < level then state11 else state00).eval ρ = if 0 < level then 3 else 0 := by
    split <;> rfl
  rw [hlevel]

section
variable {level : Nat} {waited : List String} {items : List Item} {c : Circuit}
  {cs : List Simulator} {t : Nat}

theorem Layout.allDone_seen (h : Layout level waited items) (hc : Trace items c cs)
    (ht : t < cs.length) :
    Expr.holdsAll (envAt c cs t)
        ((waited.map (isDoneTap level)).map fun q => .ident q.last) = true ↔
      ∀ i ∈ waited, Seen level (fun u => valueAt cs u (instanceState i) = 2) t := by
  rw [List.map_map, show ((fun q : Pipeline => Expr.ident q.last) ∘ isDoneTap level) =
    Expr.ident ∘ fun i => (isDoneTap level i).last from rfl, ← List.map_map, holdsAll_idents]
  simp only [List.mem_map, forall_exists_index, and_imp, forall_apply_eq_imp_iff₂]
  exact forall₂_congr fun i hi => h.isDone_seen hc ht hi

def controlBlock (level : Nat) (finished : List Pipeline) : List Stmt :=
  [.branch (.ident resetWire) [setState stateReg state00] [controlStep level finished]]

theorem Layout.controlBlock_mem (h : Layout level waited items) :
    .logic (.clocked (controlBlock level (waited.map (isDoneTap level))) false) ∈ items :=
  h.controller (by simp [controlLogic, controlBlock])

theorem stateReg_target (finished : List Pipeline) :
    stateReg ∈ Stmt.allTargets (controlBlock level finished) := by
  simp [controlBlock, Stmt.allTargets, Stmt.targets, setState]

theorem countdownReg_target (finished : List Pipeline) :
    countdownReg ∈ Stmt.allTargets (controlBlock level finished) := by
  simp [controlBlock, controlStep, drainBody, Stmt.allTargets, Stmt.targets, Stmt.armTargets]

/-- The countdown has room for the cycles that it starts from. -/
theorem countdownWidth_le (hl : level < signedBound) :
    0 < countdownWidth level ∧ countdownWidth level ≤ 64 ∧
      drainCycles level < Nat.pow 2 (countdownWidth level) := by
  have hle : bitLength (drainCycles level) ≤ 64 :=
    (bitLength_le_iff _ _).2 (Nat.lt_of_le_of_lt (Nat.sub_le _ _) (Nat.lt_trans hl (by decide)))
  refine ⟨Nat.le_max_left 1 _, Nat.max_le.2 ⟨by decide, hle⟩, ?_⟩
  exact (bitLength_le_iff _ _).1 (Nat.le_max_right 1 _)

/-- What is loaded into the countdown is the number of the cycles. -/
theorem toNat_countdown (hl : level < signedBound) :
    (Literal.mask (drainCycles level).toUInt64 (countdownWidth level)).toNat = level - 1 := by
  obtain ⟨-, hle, hlt⟩ := countdownWidth_le hl
  have hword : (drainCycles level).toUInt64.toNat = drainCycles level :=
    UInt64.toNat_ofNat_of_lt (Nat.lt_of_lt_of_le hlt (Nat.pow_le_pow_right (by decide) hle))
  rw [Literal.toNat_mask _ hle, hword, Nat.mod_eq_of_lt hlt]
  rfl

theorem Layout.stateReg_width (h : Layout level waited items) (hc : Trace items c cs) :
    c.width stateReg = 2 :=
  hc.reads.signal ⟨stateReg, .reg, BitRange.bits 2, []⟩ (h.signals (by simp [controlSignals]))

theorem Layout.countdownReg_width (h : Layout level waited items) (hc : Trace items c cs)
    (hl : level < signedBound) : c.width countdownReg = countdownWidth level := by
  rw [hc.reads.signal ⟨countdownReg, .reg, some (BitRange.vector (countdownWidth level)), []⟩
    (h.signals (by simp [controlSignals]))]
  exact simulatedWidth_vector (countdownWidth_le hl).1 (countdownWidth_le hl).2.1

/-- The registers of the controller after a cycle. -/
theorem Layout.control_next (h : Layout level waited items) (hc : Trace items c cs)
    (ht : t + 1 < cs.length) {r : String}
    (hr : r ∈ Stmt.allTargets (controlBlock level (waited.map (isDoneTap level)))) :
    valueAt cs (t + 1) r = (lastWrite r (if valueAt cs t resetWire ≠ 0 then [(stateReg, 0)]
      else Stmt.writes (envAt c cs t) (controlStep level (waited.map (isDoneTap level))))).elim
        (valueAt cs t r) (Literal.mask · (c.width r)) := by
  rw [hc.register ht h.controlBlock_mem hr]
  simp only [controlBlock, Stmt.allWrites, Stmt.writes, Expr.eval, setState, List.append_nil,
    eval_state00, bne_iff_ne]
  rfl

theorem Layout.resetWire_released (h : Layout level waited items) (hc : Trace items c cs)
    (ht : t < cs.length) (hr : valueAt cs t resetPort = 1) : valueAt cs t resetWire = 0 := by
  rw [hc.assign ht (h.reset (List.mem_cons_of_mem _ (List.mem_singleton_self _))),
    hc.reads.signal ⟨resetWire, .wire, none, []⟩ (h.reset (List.mem_cons_self ..))]
  show Literal.mask (Literal.mask (~~~ valueAt cs t resetPort) _) 1 = 0
  rw [hr]
  exact mask_complement_one _

@[simp] theorem stateReg_ne_countdownReg : stateReg ≠ countdownReg := by decide

/-- The registers of the controller after a cycle out of reset, from what is written in it. -/
theorem Layout.control_step (h : Layout level waited items) (hc : Trace items c cs)
    (hl : level < signedBound) (ht : t + 1 < cs.length) (hr : valueAt cs t resetWire = 0)
    {ws : List (String × UInt64)}
    (hws : Stmt.writes (envAt c cs t) (controlStep level (waited.map (isDoneTap level))) = ws) :
    valueAt cs (t + 1) stateReg =
      (lastWrite stateReg ws).elim (valueAt cs t stateReg) (Literal.mask · 2) ∧
    valueAt cs (t + 1) countdownReg = (lastWrite countdownReg ws).elim (valueAt cs t countdownReg)
      (Literal.mask · (countdownWidth level)) := by
  have hreset : ¬ valueAt cs t resetWire ≠ 0 := fun hne => hne hr
  refine ⟨?_, ?_⟩
  · rw [h.control_next hc ht (stateReg_target _), if_neg hreset, hws, h.stateReg_width hc]
  · rw [h.control_next hc ht (countdownReg_target _), if_neg hreset, hws,
      h.countdownReg_width hc hl]

theorem Layout.control_idle (h : Layout level waited items) (hc : Trace items c cs)
    (hl : level < signedBound) (ht : t + 1 < cs.length) (hr : valueAt cs t resetWire = 0)
    (hs : valueAt cs t stateReg = 0) :
    Seen level (Up (valueAt cs) startPort) t ∧ valueAt cs (t + 1) stateReg = 1 ∨
    ¬ Seen level (Up (valueAt cs) startPort) t ∧ valueAt cs (t + 1) stateReg = 0 := by
  have hws := writes_controlStep (envAt c cs t) level (waited.map (isDoneTap level))
  have hseen := h.start_seen hc (t := t) (by omega)
  simp only [envAt_value, hs, if_true] at hws
  by_cases hg : valueAt cs t (startPipeline level).last ≠ 0
  · exact .inl ⟨hseen.1 hg, (h.control_step hc hl ht hr (hws.trans (if_pos hg))).1⟩
  · exact .inr ⟨mt hseen.2 hg, (h.control_step hc hl ht hr (hws.trans (if_neg hg))).1.trans hs⟩

theorem Layout.control_running (h : Layout level waited items) (hc : Trace items c cs)
    (hl : level < signedBound) (ht : t + 1 < cs.length) (hr : valueAt cs t resetWire = 0)
    (hs : valueAt cs t stateReg = 1) :
    (∀ i ∈ waited, Seen level (fun u => valueAt cs u (instanceState i) = 2) t) ∧
      valueAt cs (t + 1) stateReg = 2 ∧ (valueAt cs (t + 1) countdownReg).toNat = level - 1 ∨
    ¬ (∀ i ∈ waited, Seen level (fun u => valueAt cs u (instanceState i) = 2) t) ∧
      valueAt cs (t + 1) stateReg = 1 := by
  have hws := writes_controlStep (envAt c cs t) level (waited.map (isDoneTap level))
  have hseen := h.allDone_seen hc (t := t) (by omega)
  simp only [envAt_value, hs, if_true] at hws
  rw [if_neg (by decide)] at hws
  by_cases hall : ∀ i ∈ waited, Seen level (fun u => valueAt cs u (instanceState i) = 2) t
  · rw [if_pos (hseen.2 hall)] at hws
    obtain ⟨hstate, hcount⟩ := h.control_step hc hl ht hr hws
    refine .inl ⟨hall, hstate, ?_⟩
    have hcount : valueAt cs (t + 1) countdownReg = Literal.mask (Literal.mask
        (drainCycles level).toUInt64 (countdownWidth level)) (countdownWidth level) := by
      simpa [drainWrites, lastWrite] using hcount
    rw [hcount, Literal.mask_mask]
    exact toNat_countdown hl
  · rw [if_neg (mt hseen.1 hall)] at hws
    exact .inr ⟨hall, (h.control_step hc hl ht hr hws).1.trans hs⟩

theorem Layout.control_drain (h : Layout level waited items) (hc : Trace items c cs)
    (hl : level < signedBound) (ht : t + 1 < cs.length) (hr : valueAt cs t resetWire = 0)
    (hs : valueAt cs t stateReg = 2) :
    valueAt cs (t + 1) stateReg = (if 0 < level then 3 else 0) ∧
      valueAt cs (t + 1) countdownReg = valueAt cs t countdownReg := by
  have hws := writes_controlStep (envAt c cs t) level (waited.map (isDoneTap level))
  simp only [envAt_value, hs, if_true] at hws
  rw [if_neg (by decide), if_neg (by decide)] at hws
  obtain ⟨hstate, hcount⟩ := h.control_step hc hl ht hr hws
  refine ⟨?_, hcount⟩
  rw [hstate]
  split <;> rfl

theorem Layout.control_waiting (h : Layout level waited items) (hc : Trace items c cs)
    (hl : level < signedBound) (ht : t + 1 < cs.length) (hr : valueAt cs t resetWire = 0)
    (hs : valueAt cs t stateReg = 3) :
    (valueAt cs t countdownReg).toNat = 0 ∧ valueAt cs (t + 1) stateReg = 0 ∨
    (valueAt cs t countdownReg).toNat = (valueAt cs (t + 1) countdownReg).toNat + 1 ∧
      valueAt cs (t + 1) stateReg = 3 := by
  have hws := writes_controlStep (envAt c cs t) level (waited.map (isDoneTap level))
  simp only [envAt_value, hs, if_true, allWrites_drainBody] at hws
  rw [if_neg (by decide), if_neg (by decide), if_neg (by decide)] at hws
  by_cases hcount : valueAt cs t countdownReg = 0
  · exact .inl ⟨by rw [hcount]; rfl, (h.control_step hc hl ht hr (hws.trans (if_pos hcount))).1⟩
  · obtain ⟨hstate, hnext⟩ := h.control_step hc hl ht hr (hws.trans (if_neg hcount))
    refine .inr ⟨?_, hstate.trans hs⟩
    obtain ⟨hpos, hle, -⟩ := countdownWidth_le hl
    have hone : Literal.mask 1 (countdownWidth level) = 1 := Literal.mask_bitOf (by omega) true
    have hnext : valueAt cs (t + 1) countdownReg =
        Literal.mask (valueAt cs t countdownReg - 1) (countdownWidth level) := by
      simpa [lastWrite, hone, h.countdownReg_width hc hl, Literal.mask_mask] using hnext
    have hbound : (valueAt cs t countdownReg).toNat < Nat.pow 2 (countdownWidth level) := by
      rw [← hc.register_masked (by omega) h.controlBlock_mem (countdownReg_target _),
        h.countdownReg_width hc hl, Literal.toNat_mask _ hle]
      exact Nat.mod_lt _ (Nat.two_pow_pos _)
    -- not zero, so that the subtraction does not wrap
    have hne : (valueAt cs t countdownReg).toNat ≠ 0 := fun h0 => hcount (UInt64.toNat_inj.1 h0)
    have hsub : (valueAt cs t countdownReg - 1).toNat = (valueAt cs t countdownReg).toNat - 1 :=
      UInt64.toNat_sub_of_le _ _ (UInt64.le_iff_toNat_le.2 (Nat.one_le_iff_ne_zero.2 hne))
    rw [hnext, Literal.toNat_mask _ hle, hsub, Nat.mod_eq_of_lt (by omega)]
    omega

theorem Layout.controls (h : Layout level waited items) (hc : Trace items c cs)
    (hl : level < signedBound) : Controller level cs.length (valueAt cs) waited where
  first := hc.register_first (mem_registersOf.2
    ⟨⟨stateReg, .reg, BitRange.bits 2, []⟩, h.signals (by simp [controlSignals]), rfl, rfl⟩)
  code t ht := by
    rw [← hc.register_masked ht h.controlBlock_mem (stateReg_target _), h.stateReg_width hc]
    exact mask_two_cases _
  released t ht := h.resetWire_released hc ht
  reset t ht hr := by
    rw [h.control_next hc ht (stateReg_target _), if_pos hr, h.stateReg_width hc]
    rfl
  idle t ht := h.control_idle hc hl ht
  running t ht := h.control_running hc hl ht
  drain t ht := h.control_drain hc hl ht
  waiting t ht := h.control_waiting hc hl ht

end

/-! ### The controller of an instance -/

/-- What the controller of an instance writes outside reset, by its state. -/
theorem writes_handshakeStep (ρ : Env) (placed : String) (start done : Pipeline) :
    Stmt.writes ρ (handshakeStep placed start done) =
      if ρ.value (instanceState placed) = 0 then
        if ρ.value start.last ≠ 0 then [(instanceState placed, 1)] else []
      else if ρ.value (instanceState placed) = 1 then
        if ρ.value (instanceReady placed) ≠ 0 then
          if ρ.value (instanceDone placed) ≠ 0 then [(instanceState placed, 2)]
          else [(instanceState placed, 3)]
        else []
      else if ρ.value (instanceState placed) = 3 then
        if ρ.value (instanceDone placed) ≠ 0 then [(instanceState placed, 2)] else []
      else if ρ.value (instanceState placed) = 2 then
        if ρ.value done.last ≠ 0 then [(instanceState placed, 0)] else []
      else [] := by
  simp only [handshakeStep, Stmt.writes, Stmt.armWrites, Stmt.allWrites, Expr.eval, setState,
    eval_state00, eval_state01, eval_state10, eval_state11, List.append_nil,
    beq_iff_eq, bne_iff_ne, eq_comm (b := ρ.value (instanceState placed))]

section
variable {level : Nat} {waited : List String} {items : List Item} {c : Circuit}
  {cs : List Simulator} {t : Nat} {i : String}

def handshakeBlock (level : Nat) (placed : String) : List Stmt :=
  [.branch (.unary .negation (.ident (resetTap level placed).last))
    [setState (instanceState placed) state00]
    [handshakeStep placed (startTap level placed) (doneTap level placed)]]

theorem Layout.handshakeBlock_mem (h : Layout level waited items) (hi : i ∈ waited) :
    .logic (.clocked (handshakeBlock level i) false) ∈ items :=
  h.handshake i hi (by simp [handshakeItems, handshakeLogic, handshakeBlock])

theorem instanceState_target (level : Nat) (i : String) :
    instanceState i ∈ Stmt.allTargets (handshakeBlock level i) := by
  simp [handshakeBlock, Stmt.allTargets, Stmt.targets, setState]

theorem Layout.instanceState_signal (h : Layout level waited items) (hi : i ∈ waited) :
    .signal ⟨instanceState i, .reg, BitRange.bits 2, []⟩ ∈ items :=
  h.handshake i hi (by simp [handshakeItems, handshakeSignals])

theorem Layout.instanceState_width (h : Layout level waited items) (hc : Trace items c cs)
    (hi : i ∈ waited) : c.width (instanceState i) = 2 :=
  hc.reads.signal _ (h.instanceState_signal hi)

theorem Layout.handshake_reset (h : Layout level waited items) (hc : Trace items c cs)
    (hi : i ∈ waited) (ht : t + 1 < cs.length) (hr : ¬ Seen level (Up (valueAt cs) resetPort) t) :
    valueAt cs (t + 1) (instanceState i) = 0 := by
  have hr' : valueAt cs t (resetTap level i).last = 0 :=
    Decidable.not_not.1 (mt (h.reset_seen hc (by omega) hi).1 hr)
  rw [hc.register ht (h.handshakeBlock_mem hi) (instanceState_target level i)]
  simp [handshakeBlock, Stmt.allWrites, Stmt.writes, Expr.eval, hr', bitOf, setState, lastWrite,
    Literal.mask_zero]

/-- The state of an instance after a cycle out of reset, from what is written in it. -/
theorem Layout.handshake_step (h : Layout level waited items) (hc : Trace items c cs)
    (hi : i ∈ waited) (ht : t + 1 < cs.length) (hr : Seen level (Up (valueAt cs) resetPort) t)
    {ws : List (String × UInt64)} (hws : Stmt.writes (envAt c cs t)
      (handshakeStep i (startTap level i) (doneTap level i)) = ws) :
    valueAt cs (t + 1) (instanceState i) =
      (lastWrite (instanceState i) ws).elim (valueAt cs t (instanceState i))
        (Literal.mask · 2) := by
  have hr' : valueAt cs t (resetTap level i).last ≠ 0 := (h.reset_seen hc (by omega) hi).2 hr
  rw [hc.register ht (h.handshakeBlock_mem hi) (instanceState_target level i),
    h.instanceState_width hc hi, ← hws]
  simp [handshakeBlock, Stmt.allWrites, Stmt.writes, Expr.eval, hr', bitOf]

theorem Layout.handshake_move (h : Layout level waited items) (hc : Trace items c cs)
    (hi : i ∈ waited) (ht : t + 1 < cs.length) (hr : Seen level (Up (valueAt cs) resetPort) t)
    {code : UInt64} (hws : Stmt.writes (envAt c cs t)
      (handshakeStep i (startTap level i) (doneTap level i)) = [(instanceState i, code)]) :
    valueAt cs (t + 1) (instanceState i) = Literal.mask code 2 := by
  rw [h.handshake_step hc hi ht hr hws]
  simp [lastWrite]

theorem Layout.handshakes (h : Layout level waited items) (hc : Trace items c cs)
    (hi : i ∈ waited) : Handshake level cs.length (valueAt cs) i where
  first := hc.register_first (mem_registersOf.2 ⟨_, h.instanceState_signal hi, rfl, rfl⟩)
  code t ht := by
    rw [← hc.register_masked ht (h.handshakeBlock_mem hi) (instanceState_target level i),
      h.instanceState_width hc hi]
    exact mask_two_cases _
  reset t ht hr := h.handshake_reset hc hi ht hr
  idle t ht hr hs := by
    have hws := writes_handshakeStep (envAt c cs t) i (startTap level i) (doneTap level i)
    have hseen := h.startTap_seen hc (t := t) (by omega) hi
    simp only [envAt_value, hs, if_true] at hws
    by_cases hg : valueAt cs t (startTap level i).last ≠ 0
    · exact .inl ⟨hseen.1 hg, h.handshake_move hc hi ht hr (hws.trans (if_pos hg))⟩
    · exact .inr ⟨mt hseen.2 hg, (h.handshake_step hc hi ht hr (hws.trans (if_neg hg))).trans hs⟩
  started t ht hr hs := by
    have hws := writes_handshakeStep (envAt c cs t) i (startTap level i) (doneTap level i)
    simp only [envAt_value, hs, if_true] at hws
    rw [if_neg (by decide)] at hws
    by_cases hready : valueAt cs t (instanceReady i) = 0
    · have hws := hws.trans (if_neg (not_not_intro hready))
      exact .inl ⟨hready, (h.handshake_step hc hi ht hr hws).trans hs⟩
    · have hws := hws.trans (if_pos hready)
      by_cases hdone : valueAt cs t (instanceDone i) = 0
      · have hws := hws.trans (if_neg (not_not_intro hdone))
        exact .inr (.inr ⟨hready, hdone, h.handshake_move hc hi ht hr hws⟩)
      · have hws := hws.trans (if_pos hdone)
        exact .inr (.inl ⟨hready, hdone, h.handshake_move hc hi ht hr hws⟩)
  waiting t ht hr hs := by
    have hws := writes_handshakeStep (envAt c cs t) i (startTap level i) (doneTap level i)
    simp only [envAt_value, hs, if_true] at hws
    rw [if_neg (by decide), if_neg (by decide)] at hws
    by_cases hdone : valueAt cs t (instanceDone i) = 0
    · have hws := hws.trans (if_neg (not_not_intro hdone))
      exact .inr ⟨hdone, (h.handshake_step hc hi ht hr hws).trans hs⟩
    · exact .inl ⟨hdone, h.handshake_move hc hi ht hr (hws.trans (if_pos hdone))⟩
  finished t ht hr hs := by
    have hws := writes_handshakeStep (envAt c cs t) i (startTap level i) (doneTap level i)
    have hseen := h.doneTap_seen hc (t := t) (by omega) hi
    simp only [envAt_value, hs, if_true] at hws
    rw [if_neg (by decide), if_neg (by decide), if_neg (by decide)] at hws
    by_cases hg : valueAt cs t (doneTap level i).last ≠ 0
    · exact .inl ⟨hseen.1 hg, h.handshake_move hc hi ht hr (hws.trans (if_pos hg))⟩
    · exact .inr ⟨mt hseen.2 hg, (h.handshake_step hc hi ht hr (hws.trans (if_neg hg))).trans hs⟩
  start t ht := by
    have hassign : .logic (.assign (instanceStart i)
        (.equals (.ident (instanceState i)) state01)) ∈ items :=
      h.handshake i hi (by simp [handshakeItems, handshakeLogic])
    rw [hc.assign ht hassign, hc.reads.signal ⟨instanceStart i, .wire, none, []⟩
      (h.handshake i hi (by simp [handshakeItems, handshakeSignals]))]
    exact Literal.mask_bitOf (w := 1) (by decide) _

theorem Layout.done_first (h : Layout level waited items) (hc : Trace items c cs)
    (ht : t < cs.length) :
    valueAt cs t (donePipeline level).first = bitOf (valueAt cs t stateReg == 2) := by
  rw [hc.first_stage h.done ht]
  exact Literal.mask_bitOf (w := 1) (by decide) _

/-- The ready port tells the first drain cycle. -/
theorem Layout.ready_eq (h : Layout level waited items) (hc : Trace items c cs)
    (ht : t < cs.length) : valueAt cs t readyPort =
      Literal.mask (bitOf (valueAt cs t stateReg == 2)) (c.width readyPort) := by
  have hassign : .logic (.assign readyPort (.ident (donePipeline level).first)) ∈ items :=
    h.controller (by simp [controlLogic])
  rw [hc.assign ht hassign]
  show Literal.mask (valueAt cs t (donePipeline level).first) _ = _
  rw [h.done_first hc ht]

/-- The done port tells the same, late. -/
theorem Layout.done_eq (h : Layout level waited items) (hc : Trace items c cs)
    (ht : t < cs.length) : valueAt cs t donePort =
      Literal.mask (if level ≤ t then bitOf (valueAt cs (t - level) stateReg == 2) else 0)
        (c.width donePort) := by
  have hassign : .logic (.assign donePort (.ident (donePipeline level).last)) ∈ items :=
    h.controller (by simp [controlLogic])
  rw [hc.assign ht hassign]
  show Literal.mask (valueAt cs t (donePipeline level).last) _ = _
  rw [hc.last_stage h.done ht]
  show Literal.mask
    (if level ≤ t then valueAt cs (t - level) (donePipeline level).first else 0) _ = _
  by_cases hl : level ≤ t
  · rw [if_pos hl, if_pos hl, h.done_first hc (by omega)]
  · rw [if_neg hl, if_neg hl]

end

end TaskLoom
