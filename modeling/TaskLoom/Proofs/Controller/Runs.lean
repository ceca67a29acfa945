import TaskLoom.Proofs.Controller.Moves
import TaskLoom.Proofs.Simulation.Acyclic

/-!
# Runs of a generated module

Every run of a generated module, under an environment that drives no register, is a run of a
composite, so its controllers make the moves of `Controller` and `Handshake`
(`generateTask_trace`).

The second half is about composites of one instance.  `momentAt` computes what such a composite does
under an environment that says in which cycles it starts the composite and answers for the instance,
and a run shows what was computed (`SoloRun.shows`).
-/

namespace TaskLoom

/-- A run of a generated module, under an environment that drives no register, is a run of a
composite that waits for the instances of the task. -/
theorem generateTask_trace {o : Options} {program : Program} {parts : Parts} {task : Task}
    {m : Module} {ds : List Drive} {cs : List Simulator}
    (hgen : (generateTask o program parts task).2 = .ok m) (hrun : simulate m ds = .ok cs)
    (henv : LeavesRegisters m ds) : ∃ insts items c, program.instances task = .ok insts ∧
      m.ports = portsOf items ∧ Layout o.registerLevel (waitedNames insts) items ∧
      Trace items c cs ∧ cs.length = ds.length := by
  obtain ⟨insts, items, hinsts, hadd, hlayout⟩ := generateTask_layout hgen
  obtain ⟨⟨c, hc⟩, hlen⟩ := Trace.of_simulate hlayout.wired hadd hrun henv
  refine ⟨insts, items, c, hinsts, ?_, hlayout, hc, hlen⟩
  rw [Module.addAll_eq hadd, Module.ports_pushAll]
  rfl

def demoLeaf : Task := { name := "A", level := .leaf }

def demoInstance : Instance := ⟨demoLeaf, 0, 0, []⟩

def demoTask : Task :=
  { name := "Top", level := .composite, childTable := [⟨"A", [⟨0, []⟩]⟩] }

def demoProgram : Program := ⟨"Top", [demoTask, demoLeaf]⟩

theorem demo_instances : demoProgram.instances demoTask = .ok [demoInstance] := rfl

/-- The module of the composite, if one is generated. -/
def soloModule (o : Options) (parts : Parts) : Module :=
  match (generateTask o demoProgram parts demoTask).2 with
  | .ok m => m
  | .error _ => { name := "" }

theorem soloModule_generates {o : Options} {parts : Parts}
    (hok : (generateTask o demoProgram parts demoTask).2.isOk = true) :
    (generateTask o demoProgram parts demoTask).2 = .ok (soloModule o parts) := by
  unfold soloModule
  cases h : (generateTask o demoProgram parts demoTask).2 with
  | ok m => rfl
  | error e =>
    rw [h] at hok
    cases hok

/-- One cycle of an environment that has released the reset. -/
def demoDrive (start answer : Bool) : Drive :=
  [(resetPort, 1), (startPort, bitOf start), (instanceReady "A_0", bitOf answer),
    (instanceDone "A_0", bitOf answer)]

/-- What an environment drives in `n` cycles that starts the composite in some of them, and lets the
instance be ready and done in some of them. -/
def drivesOf (n : Nat) (start answer : Nat → Bool) : List Drive :=
  (List.range n).map fun t => demoDrive (start t) (answer t)

/-- In every cycle. -/
def always (_ : Nat) : Bool := true

/-- The names that such an environment drives. -/
def demoNames : List String := [resetPort, startPort, instanceReady "A_0", instanceDone "A_0"]

theorem mem_drivesOf {n : Nat} {start answer : Nat → Bool} {d : Drive}
    (hd : d ∈ drivesOf n start answer) {x : String × UInt64} (hx : x ∈ d) : x.1 ∈ demoNames := by
  obtain ⟨t, -, rfl⟩ := List.mem_map.1 hd
  exact List.mem_map_of_mem (f := Prod.fst) hx

/-- A module of the composite that an environment can drive. -/
structure SoloModule (o : Options) (parts : Parts) (m : Module) : Prop where
  generates : (generateTask o demoProgram parts demoTask).2 = .ok m
  level : o.registerLevel < signedBound
  inputs : ∀ name ∈ [resetPort, startPort], ⟨name, .input, none⟩ ∈ m.ports
  declared : ∀ name ∈ demoNames, m.carries name = true ∧ m.isRegister name = false
  ranked : Ranked (Circuit.assignsOf m.logics)
    fun x => ((Circuit.assignsOf m.logics).map Prod.fst).idxOf x
  targets : ∀ a ∈ Circuit.assignsOf m.logics, m.carries a.1 = true ∧ a.1 ∉ demoNames

theorem SoloModule.leaves {o : Options} {parts : Parts} {m : Module} (h : SoloModule o parts m)
    (n : Nat) (start answer : Nat → Bool) : LeavesRegisters m (drivesOf n start answer) :=
  fun _ hd x hx => (h.declared x.1 (mem_drivesOf hd hx)).2

/-- What the environment does in a run of the composite, and that the controllers make their moves
in it. -/
structure SoloRun (m : Module) (level n : Nat) (start answer : Nat → Bool) (cs : List Simulator) :
    Prop where
  run : simulate m (drivesOf n start answer) = .ok cs
  length : cs.length = n
  composite : ∃ items c, m.ports = portsOf items ∧ Layout level ["A_0"] items ∧ Trace items c cs
  controller : Controller level n (valueAt cs) ["A_0"]
  handshake : Handshake level n (valueAt cs) "A_0"
  reset : ∀ t < n, valueAt cs t resetPort = 1
  start : ∀ t < n, valueAt cs t startPort = bitOf (start t)
  ready : ∀ t < n, valueAt cs t (instanceReady "A_0") = bitOf (answer t)
  done : ∀ t < n, valueAt cs t (instanceDone "A_0") = bitOf (answer t)

theorem SoloModule.exists_run {o : Options} {parts : Parts} {m : Module} (h : SoloModule o parts m)
    (n : Nat) (start answer : Nat → Bool) :
    ∃ cs, SoloRun m o.registerLevel n start answer cs := by
  obtain ⟨cs, hrun⟩ : ∃ cs, simulate m (drivesOf n start answer) = .ok cs :=
    simulate_ok _ h.ranked (fun a ha => (h.targets a ha).1) fun d hd x hx =>
      ⟨(h.declared x.1 (mem_drivesOf hd hx)).1, fun a ha he =>
        (h.targets a ha).2 (he ▸ mem_drivesOf hd hx)⟩
  obtain ⟨insts, items, c, hinsts, hports, hlayout, hc, hlen⟩ :=
    generateTask_trace h.generates hrun (h.leaves n start answer)
  obtain rfl : insts = [demoInstance] := Except.ok.inj (hinsts.symm.trans demo_instances)
  have hlen : cs.length = n := by simpa [drivesOf] using hlen
  have hport {name : String} (hn : name ∈ [resetPort, startPort]) : c.width name = 1 :=
    hc.reads.port ⟨name, .input, none⟩ (by rw [← mem_portsOf, ← hports]; exact h.inputs name hn)
  have hwire (name : String) (hn : ⟨name, .wire, none, []⟩ ∈ handshakeSignals "A_0") :
      c.width name = 1 :=
    hc.reads.signal ⟨name, .wire, none, []⟩
      (hlayout.handshake "A_0" (by decide) (by simp [handshakeItems, hn]))
  have hvalue (t : Nat) (ht : t < n) {name : String} {b : Bool} (hw : c.width name = 1)
      (hx : (name, bitOf b) ∈ demoDrive (start t) (answer t)) : valueAt cs t name = bitOf b := by
    have hdrive : (drivesOf n start answer)[t]? = some (demoDrive (start t) (answer t)) := by
      simp [drivesOf, ht]
    have hnd : ((demoDrive (start t) (answer t)).map Prod.fst).Nodup := by
      show demoNames.Nodup
      decide
    rw [hc.driven hrun (by omega) hdrive hnd (x := (name, bitOf b)) hx, hw]
    exact Literal.mask_bitOf (by decide) b
  exact ⟨cs, {
    run := hrun
    length := hlen
    composite := ⟨items, c, hports, hlayout, hc⟩
    controller := hlen ▸ hlayout.controls hc h.level
    handshake := hlen ▸ hlayout.handshakes hc (by decide)
    reset := fun t ht => hvalue t ht (b := true) (hport (by decide)) (by simp [demoDrive, bitOf])
    start := fun t ht => hvalue t ht (hport (by decide)) (by simp [demoDrive])
    ready := fun t ht => hvalue t ht (hwire _ (by decide)) (by simp [demoDrive])
    done := fun t ht => hvalue t ht (hwire _ (by decide)) (by simp [demoDrive]) }⟩

/-! ### What such a composite does -/

/-- The state of the composite in one cycle, the countdown of its drain, and the state of the
instance. -/
structure Moment where
  composite : UInt64
  countdown : Nat
  inst : UInt64
  deriving DecidableEq, Repr, Inhabited

/-- The cycle that follows, by what reaches the controllers in this one: the release, a start, an
answer of the instance, and that the instance or the composite was seen to be done. -/
def Moment.next (level : Nat) (now : Moment) (released started answered instDone done : Bool) :
    Moment where
  composite :=
    if now.composite = 0 then if started then 1 else 0
    else if now.composite = 1 then if instDone then 2 else 1
    else if now.composite = 2 then if 0 < level then 3 else 0
    else if now.countdown = 0 then 0 else 3
  countdown :=
    if now.composite = 1 then level - 1
    else if now.composite = 3 then now.countdown - 1
    else now.countdown
  inst :=
    if !released then 0
    else if now.inst = 0 then if started then 1 else 0
    else if now.inst = 1 then if answered then 2 else 1
    else if done then 0 else 2

/-- What follows on the cycles so far, of which the latest comes first. -/
def Moment.after (level : Nat) (start answer : Nat → Bool) : List Moment → Moment
  | [] => ⟨0, 0, 0⟩
  | now :: before =>
    let t := before.length
    let seen (p : Moment → Bool) : Bool := ((now :: before)[level]?).any p
    now.next level (level ≤ t) (level ≤ t && start (t - level)) (answer t) (seen (·.inst = 2))
      (seen (·.composite = 2))

theorem Moment.inst_known (level : Nat) (now : Moment)
    (released started answered instDone done : Bool) :
    let next := now.next level released started answered instDone done
    next.inst = 0 ∨ next.inst = 1 ∨ next.inst = 2 := by
  dsimp only [Moment.next]
  split_ifs <;> simp

/-- The first `n` cycles, the latest first. -/
def moments (level : Nat) (start answer : Nat → Bool) : Nat → List Moment
  | 0 => []
  | n + 1 =>
    let before := moments level start answer n
    .after level start answer before :: before

/-- What the composite and its instance do in a cycle. -/
def momentAt (level : Nat) (start answer : Nat → Bool) (t : Nat) : Moment :=
  .after level start answer (moments level start answer t)

/-- A cycle shows what was computed.  The countdown counts in a drain only. -/
structure Shows (v : Nat → String → UInt64) (t : Nat) (m : Moment) : Prop where
  composite : v t stateReg = m.composite
  countdown : v t stateReg = 2 ∨ v t stateReg = 3 → (v t countdownReg).toNat = m.countdown
  inst : v t (instanceState "A_0") = m.inst
  known : m.inst = 0 ∨ m.inst = 1 ∨ m.inst = 2

theorem length_moments (level : Nat) (start answer : Nat → Bool) (n : Nat) :
    (moments level start answer n).length = n := by
  induction n with
  | zero => rfl
  | succ n ih => rw [moments, List.length_cons, ih]

theorem getElem?_moments {level : Nat} {start answer : Nat → Bool} {n j : Nat} (hj : j ≤ n) :
    (moments level start answer (n + 1))[j]? = some (momentAt level start answer (n - j)) := by
  induction n generalizing j with
  | zero =>
    obtain rfl := Nat.le_zero.1 hj
    rfl
  | succ n ih =>
    cases j with
    | zero => rfl
    | succ j =>
      rw [moments, List.getElem?_cons_succ, ih (by omega), Nat.add_sub_add_right]

theorem momentAt_succ (level : Nat) (start answer : Nat → Bool) (t : Nat) :
    momentAt level start answer (t + 1) =
      let seen (p : Moment → Bool) : Bool := ((moments level start answer (t + 1))[level]?).any p
      (momentAt level start answer t).next level (level ≤ t) (level ≤ t && start (t - level))
        (answer t) (seen (·.inst = 2)) (seen (·.composite = 2)) := by
  rw [momentAt, moments, Moment.after, length_moments]
  rfl

/-- What a cycle sees of the past is what was computed for it. -/
theorem seen_iff {v : Nat → String → UInt64} {level : Nat} {start answer : Nat → Bool} {t : Nat}
    (hpast : ∀ u ≤ t, Shows v u (momentAt level start answer u)) {name : String} {c : UInt64}
    {part : Moment → UInt64} (hpart : ∀ u m, Shows v u m → v u name = part m) :
    Seen level (fun u => v u name = c) t ↔
      (((moments level start answer (t + 1))[level]?).any fun m => part m = c) = true := by
  by_cases hl : level ≤ t
  · rw [getElem?_moments hl, Option.any_some, decide_eq_true_iff, Seen,
      hpart _ _ (hpast (t - level) (Nat.sub_le _ _))]
    exact and_iff_right hl
  · rw [List.getElem?_eq_none (by rw [length_moments]; omega)]
    simp [Seen, hl]

namespace SoloRun

variable {m : Module} {level n : Nat} {start answer : Nat → Bool} {cs : List Simulator}
  (h : SoloRun m level n start answer cs) {t : Nat}
include h

theorem up_reset (ht : t < n) : Seen level (Up (valueAt cs) resetPort) t ↔ level ≤ t := by
  refine ⟨And.left, fun hl => ⟨hl, ?_⟩⟩
  rw [Up, h.reset _ (by omega)]
  decide

theorem up_start (ht : t < n) :
    Seen level (Up (valueAt cs) startPort) t ↔ (level ≤ t && start (t - level)) = true := by
  rw [Bool.and_eq_true, decide_eq_true_iff]
  refine and_congr_right fun hl => ?_
  rw [Up, h.start _ (by omega)]
  cases start (t - level) <;> decide

/-- The moves of the controller of the instance are those that are computed. -/
theorem inst_next {now : Moment} (ht : t + 1 < n) (hnow : Shows (valueAt cs) t now)
    {instDone done : Bool}
    (hdone : Seen level (fun u => valueAt cs u stateReg = 2) t ↔ done = true) :
    valueAt cs (t + 1) (instanceState "A_0") = (now.next level (level ≤ t)
      (level ≤ t && start (t - level)) (answer t) instDone done).inst := by
  have hs := hnow.inst
  have hreset := h.up_reset (t := t) (by omega)
  by_cases hl : level ≤ t
  · have hup := hreset.2 hl
    rcases hnow.known with hi | hi | hi <;> rw [hi] at hs
    · rcases h.handshake.idle t ht hup hs with ⟨hst, hn⟩ | ⟨hst, hn⟩ <;>
        simp_all [Moment.next, h.up_start (t := t) (by omega)]
    · rcases h.handshake.started t ht hup hs with ⟨hr, hn⟩ | ⟨hr, hd, hn⟩ | ⟨hr, hd, hn⟩ <;>
        simp_all [Moment.next, h.ready t (by omega), h.done t (by omega), bitOf]
    · rcases h.handshake.finished t ht hup hs with ⟨hd, hn⟩ | ⟨hd, hn⟩ <;>
        simp_all [Moment.next]
  · rw [h.handshake.reset t ht (mt hreset.1 hl)]
    simp [Moment.next, hl]

/-- The moves of the controller of the composite are those that are computed. -/
theorem composite_next {now : Moment} (ht : t + 1 < n) (hnow : Shows (valueAt cs) t now)
    {instDone : Bool}
    (hinst : Seen level (fun u => valueAt cs u (instanceState "A_0") = 2) t ↔ instDone = true)
    (done : Bool) :
    let next := now.next level (level ≤ t) (level ≤ t && start (t - level)) (answer t) instDone done
    valueAt cs (t + 1) stateReg = next.composite ∧
      (valueAt cs (t + 1) stateReg = 2 ∨ valueAt cs (t + 1) stateReg = 3 →
        (valueAt cs (t + 1) countdownReg).toNat = next.countdown) := by
  have hreset := h.controller.released t (by omega) (h.reset t (by omega))
  have htop := hnow.composite.symm
  have hcount := hnow.countdown
  have hstart := h.up_start (t := t) (by omega)
  rcases h.controller.code t (by omega) with hs | hs | hs | hs <;> rw [hs] at htop hcount
  · rcases h.controller.idle t ht hreset hs with ⟨hst, hn⟩ | ⟨hst, hn⟩ <;> rw [hstart] at hst <;>
      simp [Moment.next, htop, hn, hst]
  · rcases h.controller.running t ht hreset hs with ⟨hd, hn, hc⟩ | ⟨hd, hn⟩ <;>
      simp only [List.forall_mem_singleton, hinst] at hd <;> simp_all [Moment.next]
  · obtain ⟨hn, hc⟩ := h.controller.drain t ht hreset hs
    simp [Moment.next, htop, hn, hc, hcount (.inl rfl)]
  · have hc' := hcount (.inr rfl)
    rcases h.controller.waiting t ht hreset hs with ⟨hc, hn⟩ | ⟨hc, hn⟩
    · simp [Moment.next, htop, hn, ← hc', hc]
    · simp [Moment.next, htop, hn, ← hc', hc]

/-- A run of the composite shows what was computed. -/
theorem shows (ht : t < n) : Shows (valueAt cs) t (momentAt level start answer t) := by
  induction t using Nat.strongRecOn with
  | ind t ih =>
    cases t with
    | zero =>
      exact ⟨h.controller.first, by simp [h.controller.first], h.handshake.first, .inl rfl⟩
    | succ t =>
      have hpast (u : Nat) (hu : u ≤ t) := ih u (by omega) (by omega)
      have hnow := hpast t (Nat.le_refl t)
      have htop := h.composite_next ht hnow (seen_iff hpast fun _ _ hs => hs.inst)
      rw [momentAt_succ]
      exact ⟨(htop _).1, (htop _).2, h.inst_next ht hnow (seen_iff hpast fun _ _ hs => hs.composite),
        Moment.inst_known ..⟩

theorem ready_eq {d : Direction} {r : Option BitRange} (hport : ⟨readyPort, d, r⟩ ∈ m.ports)
    (ht : t < n) : valueAt cs t readyPort =
      Literal.mask (bitOf (valueAt cs t stateReg == 2)) (BitRange.simulatedWidth r) := by
  obtain ⟨items, c, hports, hlayout, hc⟩ := h.composite
  rw [hlayout.ready_eq hc (by rw [h.length]; exact ht),
    hc.reads.port ⟨readyPort, d, r⟩ (by rw [← mem_portsOf, ← hports]; exact hport)]

theorem done_eq {d : Direction} {r : Option BitRange} (hport : ⟨donePort, d, r⟩ ∈ m.ports)
    (hl : level ≤ t) (ht : t < n) : valueAt cs t donePort =
      Literal.mask (bitOf (valueAt cs (t - level) stateReg == 2)) (BitRange.simulatedWidth r) := by
  obtain ⟨items, c, hports, hlayout, hc⟩ := h.composite
  rw [hlayout.done_eq hc (by rw [h.length]; exact ht), if_pos hl,
    hc.reads.port ⟨donePort, d, r⟩ (by rw [← mem_portsOf, ← hports]; exact hport)]

end SoloRun

/-! ### A composite at level 2 -/

def demoParts : Parts := { modules := [("A", { name := "A", ports := basePorts })] }

def demoOptions : Options := { registerLevel := 2 }

def demoModule : Module := soloModule demoOptions demoParts

theorem demo_generates :
    (generateTask demoOptions demoProgram demoParts demoTask).2 = .ok demoModule :=
  soloModule_generates (by decide +kernel)

theorem demo_ports : demoModule.ports = basePorts := by decide +kernel

theorem demo_solo : SoloModule demoOptions demoParts demoModule where
  generates := demo_generates
  level := by decide
  inputs := by
    rw [demo_ports]
    decide
  declared := by decide +kernel
  -- each assignment reads targets of earlier ones only
  ranked := by constructor <;> decide +kernel
  targets := by decide +kernel

/-- The composite is started in cycles 0 and 10. -/
def demoStart (t : Nat) : Bool := t = 0 || t = 10

/-- The instance is ready and done from cycle 4 on. -/
def demoAnswer (t : Nat) : Bool := 3 < t

def demoDrives : List Drive := drivesOf 14 demoStart demoAnswer

abbrev DemoRun (cs : List Simulator) : Prop := SoloRun demoModule 2 14 demoStart demoAnswer cs

theorem demo_run : ∃ cs, DemoRun cs := demo_solo.exists_run 14 demoStart demoAnswer

theorem demo_leaves : LeavesRegisters demoModule demoDrives := demo_solo.leaves 14 _ _

end TaskLoom
