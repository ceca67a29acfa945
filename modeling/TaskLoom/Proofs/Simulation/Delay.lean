import TaskLoom.Proofs.Hdl.Ranges
import TaskLoom.Proofs.Hdl.Wiring
import TaskLoom.Proofs.Simulation.Run

/-!
# Runs of a wired module, and what pipelines do in them

`Trace items c cs`: `cs` are the cycles of a run of a module made of `items`, which follow the
discipline `Wired`, under an environment that drives no register.  In a trace an assignment holds in
every cycle (`Trace.assign`) and a register takes over what its block writes (`Trace.register`).

A pipeline delays its first stage: stage `i` has in cycle `t` the value that the first stage had in
cycle `t - i`, and zero in the first `i` cycles (`Trace.stage`).
-/

namespace TaskLoom

structure Trace (items : List Item) (c : Circuit) (cs : List Simulator) : Prop where
  reads : c.Reads items
  wired : Wired [] items
  evolves : Evolution c (· ∈ registersOf items) cs

/-- The environment drives no register of a module. -/
def LeavesRegisters (m : Module) (ds : List Drive) : Prop :=
  ∀ d ∈ ds, ∀ x ∈ d, m.isRegister x.1 = false

namespace Trace

variable {items : List Item} {c : Circuit} {cs : List Simulator} {t : Nat}

theorem of_simulate {name : String} {m : Module} {ds : List Drive} (hw : Wired [] items)
    (hm : (Module.new name).addAll items = .ok m) (h : simulate m ds = .ok cs)
    (hds : LeavesRegisters m ds) : (∃ c, Trace items c cs) ∧ cs.length = ds.length := by
  have hc : ∃ c, Circuit.ofModule m = .ok c := by
    unfold simulate Simulator.start at h
    cases hc : Circuit.ofModule m with
    | error e => rw [hc] at h; cases h
    | ok c => exact ⟨c, rfl⟩
  obtain ⟨c, hc⟩ := hc
  have hreads := Module.reads_of_addAll hm hc
  obtain ⟨hev, hlen⟩ := simulate_evolution (· ∈ registersOf items) hc
    (fun r hr => hw.not_driven hreads.nodup hreads.assigns hr)
    (fun d hd x hx hr => by
      have := hds d hd x hx
      rw [(Module.isRegister_of_addAll hm x.1).2 hr] at this
      cases this) h
  exact ⟨⟨c, hreads, hw, hev⟩, hlen⟩

theorem driven (h : Trace items c cs) {m : Module} {ds : List Drive} (hrun : simulate m ds = .ok cs)
    (ht : t < cs.length) {d : Drive} (hd : ds[t]? = some d) (hnd : (d.map Prod.fst).Nodup)
    {x : String × UInt64} (hx : x ∈ d) :
    valueAt cs t x.1 = Literal.mask x.2 (c.width x.1) := by
  have hs : cs[t]? = some cs[t] := List.getElem?_eq_getElem ht
  obtain ⟨s₀, hs₀⟩ := simulate_drive hrun hd hs
  rw [valueAt_of_getElem? hs, Simulator.drive_get hs₀ hnd hx,
    h.evolves.circuit _ (List.getElem_mem ht)]

theorem assign (h : Trace items c cs) (ht : t < cs.length) {target : String} {e : Expr}
    (ha : .logic (.assign target e) ∈ items) :
    valueAt cs t target = Literal.mask (e.eval (envAt c cs t)) (c.width target) := by
  refine h.evolves.value_assign (a := (target, e)) ht ?_
  rw [h.reads.assigns]
  exact mem_assignsIn.2 ha

theorem register_first (h : Trace items c cs) {r : String} (hr : r ∈ registersOf items) :
    valueAt cs 0 r = 0 := h.evolves.value_first hr

theorem register (h : Trace items c cs) (ht : t + 1 < cs.length) {b : List Stmt} {r : String}
    (hb : .logic (.clocked b false) ∈ items) (hr : r ∈ Stmt.allTargets b) :
    valueAt cs (t + 1) r =
      (lastWrite r (Stmt.allWrites (envAt c cs t) b)).elim (valueAt cs t r)
        (Literal.mask · (c.width r)) := by
  have hb : b ∈ blocksIn items := mem_blocksIn.2 hb
  refine h.evolves.value_next (h.wired.apart_circuit h.reads.nodup h.reads.blocks) ht ?_ hr
    (h.wired.own b hb r hr)
  rw [h.reads.blocks]
  exact hb

/-- A register holds values of its width only. -/
theorem register_masked (h : Trace items c cs) (ht : t < cs.length) {b : List Stmt} {r : String}
    (hb : .logic (.clocked b false) ∈ items) (hr : r ∈ Stmt.allTargets b) :
    Literal.mask (valueAt cs t r) (c.width r) = valueAt cs t r := by
  induction t with
  | zero =>
    rw [h.register_first (h.wired.own b (mem_blocksIn.2 hb) r hr)]
    exact Literal.mask_zero _
  | succ t ih =>
    rw [h.register ht hb hr]
    cases lastWrite r (Stmt.allWrites (envAt c cs t) b) with
    | none => exact ih (by omega)
    | some x => exact Literal.mask_mask _ _

end Trace

theorem simulatedWidth_vector {w : Nat} (hw : 0 < w) (hw' : w ≤ 64) :
    BitRange.simulatedWidth (some (BitRange.vector w)) = w := by
  have hbound : (64 : Int) < signedBound := by decide
  rw [BitRange.simulatedWidth, BitRange.width_vector (by omega) (by omega)]
  exact if_neg (by omega)

namespace Pipeline

variable {p : Pipeline} {seed : Expr} {items : List Item}

theorem signal_mem (hp : p.items seed ⊆ items) {s : Signal} (hs : s ∈ p.signals) :
    .signal s ∈ items :=
  hp (List.mem_append_left _ (List.mem_map_of_mem hs))

theorem logic_mem (hp : p.items seed ⊆ items) {l : Logic} (hl : l ∈ p.logic seed) :
    .logic l ∈ items :=
  hp (List.mem_append_right _ (List.mem_map_of_mem hl))

theorem stage_signal (hp : p.items seed ⊆ items) {i : Nat} (hi : i < p.level) :
    .signal ⟨p.stageName (i + 1), .reg, p.range, [keepAttr]⟩ ∈ items :=
  signal_mem hp (List.mem_cons_of_mem _ (List.mem_map.2 ⟨i, List.mem_range.2 hi, rfl⟩))

theorem stageName_inj {i j : Nat} (h : p.stageName i = p.stageName j) : i = j := by
  have hr : Nat.repr i = Nat.repr j := (String.append_right_inj _).1 h
  have hd : Nat.toDigits 10 i = Nat.toDigits 10 j := by simpa using congrArg String.toList hr
  rw [← Nat.ofDigitChars_ten_toDigits (n := i), hd, Nat.ofDigitChars_ten_toDigits]

/-- Each register of a pipeline is written once, with the stage before it. -/
theorem lastWrite_shift (ρ : Env) {i : Nat} (hi : i < p.level) :
    lastWrite (p.stageName (i + 1)) (Stmt.allWrites ρ p.shift) =
      some (ρ.value (p.stageName i)) := by
  rw [allWrites_shift]
  refine lastWrite_of_nodup ?_ (List.mem_map.2 ⟨i, List.mem_range.2 hi, rfl⟩)
  rw [List.map_map]
  refine List.Pairwise.map _ (fun a b hab he => hab ?_) List.nodup_range
  have := stageName_inj he
  omega

end Pipeline

namespace Trace

variable {items : List Item} {c : Circuit} {cs : List Simulator} {t : Nat} {p : Pipeline}
  {seed : Expr}

/-- The first stage follows the expression that drives it, cut to the width of the pipeline. -/
theorem first_stage (h : Trace items c cs) (hp : p.items seed ⊆ items) (ht : t < cs.length) :
    valueAt cs t p.first =
      Literal.mask (seed.eval (envAt c cs t)) (BitRange.simulatedWidth p.range) := by
  rw [h.assign ht (p.logic_mem hp (List.mem_cons_self ..)),
    h.reads.signal ⟨p.first, .wire, p.range, []⟩ (p.signal_mem hp (List.mem_cons_self ..))]

theorem stage (h : Trace items c cs) (hp : p.items seed ⊆ items) {i : Nat} (hi : i ≤ p.level)
    (ht : t < cs.length) :
    valueAt cs t (p.stageName i) = if i ≤ t then valueAt cs (t - i) p.first else 0 := by
  -- on the stage: in cycle `t + 1` it has what the stage before it had in cycle `t`
  induction i generalizing t with
  | zero => simp [Pipeline.first]
  | succ i ih =>
    have hsignal := p.stage_signal hp hi
    cases t with
    | zero => simpa using h.register_first (mem_registersOf.2 ⟨_, hsignal, rfl, rfl⟩)
    | succ t =>
      have hblock : .logic (.clocked p.shift false) ∈ items := by
        refine p.logic_mem hp (List.mem_cons_of_mem _ ?_)
        rw [if_neg (by omega)]
        exact List.mem_singleton_self _
      have htarget : p.stageName (i + 1) ∈ Stmt.allTargets p.shift := by
        rw [p.allTargets_shift]
        exact List.mem_map.2 ⟨i, List.mem_range.2 hi, rfl⟩
      rw [h.register ht hblock htarget, p.lastWrite_shift _ hi, Option.elim_some,
        h.reads.signal _ hsignal]
      show Literal.mask (valueAt cs t (p.stageName i)) _ = _
      rw [ih (by omega) (by omega)]
      by_cases hit : i ≤ t
      · rw [if_pos hit, if_pos (by omega), h.first_stage hp (by omega), Literal.mask_mask,
          ← h.first_stage hp (by omega), Nat.add_sub_add_right]
      · rw [if_neg hit, if_neg (by omega), Literal.mask_zero]

theorem last_stage (h : Trace items c cs) (hp : p.items seed ⊆ items) (ht : t < cs.length) :
    valueAt cs t p.last = if p.level ≤ t then valueAt cs (t - p.level) p.first else 0 :=
  h.stage hp (Nat.le_refl _) ht

end Trace

end TaskLoom
