import TaskLoom.Proofs.Controller.Phases

/-!
# The controllers in lock step

The controllers of the instances follow the controller of the composite to the cycle: an instance is
idle exactly when the composite is, and done throughout the drain (`Locked`).

One thing can break this.  The ends of the instances are seen `level` cycles late, so a running
phase that begins fewer than `level` cycles after the composite went back to idle (`Hurried`) still
sees the ends of the run before.  It is over after one cycle, and the instances keep up only if all
of them are ready and done in that very cycle (`Prompt`).  `locked_of_prompt` says that nothing else
goes wrong: it is an induction over the cycles, with one step for each state of the controller.
-/

namespace TaskLoom

/-- A running phase follows the idle cycle `a`, fewer than `level` cycles after the composite went
back to idle. -/
def Hurried (level : Nat) (v : Nat → String → UInt64) (a : Nat) : Prop :=
  v a stateReg = 0 ∧ v (a + 1) stateReg = 1 ∧
    ∃ e < a, v e stateReg ≠ 0 ∧ v (e + 1) stateReg = 0 ∧ a < e + level

/-- The instance is ready and done in one cycle. -/
def Prompt (v : Nat → String → UInt64) (i : String) (t : Nat) : Prop :=
  v t (instanceReady i) ≠ 0 ∧ v t (instanceDone i) ≠ 0

structure Locked (v : Nat → String → UInt64) (i : String) (t : Nat) : Prop where
  idle : v t (instanceState i) = 0 ↔ v t stateReg = 0
  done : v t stateReg = 2 ∨ v t stateReg = 3 → v t (instanceState i) = 2

variable {level n : Nat} {v : Nat → String → UInt64} {waited : List String} {i : String} {k t : Nat}

/-- An instance sees the reset released as soon as the composite can leave idle. -/
theorem Controller.seen_of_busy (h : Controller level n v waited) (hr : ReleasedOnce n v k)
    (ht : t < n) (hs : v t stateReg ≠ 0) {u : Nat} (htu : t ≤ u) (hu : u < n) :
    Seen level (Up v resetPort) u := by
  have := h.busy_after hr ht hs
  exact (hr.reset.seen_iff hu).2 (by omega)

namespace Handshake

/-- An instance that is done stays so while the composite runs. -/
theorem done_kept (hi : Handshake level n v i) (h : Controller level n v waited)
    (hr : ReleasedOnce n v k) {u : Nat} (hd : v u (instanceState i) = 2) (hut : u ≤ t)
    (ht : t + 1 < n) (hrun : ∀ x, u ≤ x → x ≤ t → v x stateReg = 1) :
    v (t + 1) (instanceState i) = 2 := by
  have hstep (x : Nat) (hux : u ≤ x) (hxt : x ≤ t) (hx : v x (instanceState i) = 2) :
      v (x + 1) (instanceState i) = 2 := by
    have h1 := hrun x hux hxt
    have hseen := h.seen_of_busy hr (t := x) (by omega) (by rw [h1]; decide) (Nat.le_refl x)
      (by omega)
    rcases hi.finished x (by omega) hseen hx with ⟨hdrain, -⟩ | ⟨-, h2⟩
    · exact absurd hdrain (h.not_seen_of_running hr (by omega) h1)
    · exact h2
  obtain ⟨j, rfl⟩ : ∃ j, t = u + j := ⟨t - u, by omega⟩
  clear hut
  induction j with
  | zero => exact hstep u (by omega) (by omega) hd
  | succ j ih =>
    refine hstep (u + (j + 1)) (by omega) (by omega) (ih (by omega) (fun x hx hx' => ?_) ?_)
    · exact hrun x hx (by omega)
    · exact fun x hx hx' => hstep x hx (by omega)

theorem starts (hi : Handshake level n v i) (h : Controller level n v waited)
    (hr : ReleasedOnce n v k) (ht : t + 1 < n) (hidle : v t (instanceState i) = 0)
    (h0 : v t stateReg = 0) (h1 : v (t + 1) stateReg = 1) : v (t + 1) (instanceState i) = 1 := by
  have hk := h.busy_after hr ht (by rw [h1]; decide)
  have hreset := h.released_from hr (t := t) (by omega) (by omega)
  have hseen : Seen level (Up v resetPort) t := (hr.reset.seen_iff (by omega)).2 (by omega)
  rcases h.idle t ht hreset h0 with ⟨hstart, -⟩ | ⟨-, hn⟩
  · rcases hi.idle t ht hseen hidle with ⟨-, hn⟩ | ⟨hno, -⟩
    · exact hn
    · exact absurd hstart hno
  · simp [h1] at hn

theorem done_of_prompt (hi : Handshake level n v i) (ht : t + 1 < n)
    (hseen : Seen level (Up v resetPort) t) (hs : v t (instanceState i) = 1) (hp : Prompt v i t) :
    v (t + 1) (instanceState i) = 2 := by
  rcases hi.started t ht hseen hs with ⟨h0, -⟩ | ⟨-, -, h2⟩ | ⟨-, h0, -⟩
  · exact absurd h0 hp.1
  · exact h2
  · exact absurd h0 hp.2

end Handshake

/-! ### One step, state by state -/

section
variable (h : Controller level n v waited) (hi : Handshake level n v i) (hr : ReleasedOnce n v k)
include h hi hr

theorem Locked.step_idle (hl : Locked v i t) (ht : t + 1 < n) (h0 : v t stateReg = 0)
    (hk : k + level ≤ t) : Locked v i (t + 1) := by
  have hreset := h.released_from hr (t := t) (by omega) (by omega)
  have hseen : Seen level (Up v resetPort) t := (hr.reset.seen_iff (by omega)).2 hk
  rcases h.idle t ht hreset h0 with ⟨hstart, hn⟩ | ⟨hstart, hn⟩
  · rcases hi.idle t ht hseen (hl.idle.2 h0) with ⟨-, hn'⟩ | ⟨hno, -⟩
    · exact ⟨by simp [hn, hn'], by simp [hn]⟩
    · exact absurd hstart hno
  · rcases hi.idle t ht hseen (hl.idle.2 h0) with ⟨hyes, -⟩ | ⟨-, hn'⟩
    · exact absurd hyes hstart
    · exact ⟨by simp [hn, hn'], by simp [hn]⟩

theorem Locked.step_running (hl : Locked v i t) (ht : t + 1 < n) (h1 : v t stateReg = 1)
    (hn : v (t + 1) stateReg = 1) : Locked v i (t + 1) := by
  have hseen := h.seen_of_busy hr (t := t) (by omega) (by rw [h1]; decide) (Nat.le_refl t)
    (by omega)
  have hbusy : v (t + 1) (instanceState i) ≠ 0 := by
    rcases hi.code t (by omega) with hs | hs | hs | hs
    · exact absurd (hl.idle.1 hs) (by rw [h1]; decide)
    · rcases hi.started t ht hseen hs with ⟨-, hn'⟩ | ⟨-, -, hn'⟩ | ⟨-, -, hn'⟩ <;> simp [hn']
    · have hn' := hi.done_kept h hr hs (Nat.le_refl t) ht fun x hx hx' => by
        rwa [show x = t by omega]
      simp [hn']
    · rcases hi.waiting t ht hseen hs with ⟨-, hn'⟩ | ⟨-, hn'⟩ <;> simp [hn']
  exact ⟨by simp [hn, hbusy], by simp [hn]⟩

/-- The end of a running phase: the instance was done `level` cycles before, in the same phase,
unless the phase was hurried. -/
theorem Locked.step_finish (hall : ∀ x ≤ t, Locked v i x) (ht : t + 1 < n) (h1 : v t stateReg = 1)
    (hn : v (t + 1) stateReg = 2) (hd : Seen level (fun u => v u (instanceState i) = 2) t)
    (hp : ∀ a < t, Hurried level v a → Prompt v i (a + 1)) : Locked v i (t + 1) := by
  suffices hdone : v (t + 1) (instanceState i) = 2 from ⟨by simp [hn, hdone], fun _ => hdone⟩
  obtain ⟨hlt, hd⟩ := hd
  obtain ⟨a, hat, ha, hrun⟩ := h.running_from (by omega) h1
  have hbusy : v (t - level) stateReg ≠ 0 := by
    intro h0
    have := (hall (t - level) (by omega)).idle.2 h0
    simp [this] at hd
  -- the end that is seen belongs to this phase, or to the run before and the phase is hurried
  rcases Nat.lt_trichotomy a (t - level) with hlt' | heq | hgt
  · exact hi.done_kept h hr hd (by omega) ht fun x hx hx' => hrun x (by omega) hx'
  · exact absurd (heq ▸ ha) hbusy
  · obtain ⟨e, hxe, hea, he, he'⟩ := Controller.exists_end hgt hbusy ha
    have ha1 := hrun (a + 1) (by omega) (by omega)
    have hprompt := hp a hat ⟨ha, ha1, e, hea, he, he', by omega⟩
    have hs1 := hi.starts h hr (t := a) (by omega) ((hall a (by omega)).idle.2 ha) ha ha1
    have hseen := h.seen_of_busy hr (t := a + 1) (by omega) (by rw [ha1]; decide) (Nat.le_refl _)
      (by omega)
    have hs2 := hi.done_of_prompt (by omega) hseen hs1 hprompt
    by_cases hta : t = a + 1
    · rwa [hta]
    · exact hi.done_kept h hr hs2 (by omega) ht fun x hx hx' => hrun x (by omega) hx'

/-- In the drain the instance goes back to idle with the composite. -/
theorem Locked.step_drain (hl : Locked v i t) (ht : t + 1 < n)
    (hs : v t stateReg = 2 ∨ v t stateReg = 3) : Locked v i (t + 1) := by
  have hne : v t stateReg ≠ 0 := by rcases hs with hs | hs <;> rw [hs] <;> decide
  have hseen := h.seen_of_busy hr (t := t) (by omega) hne (Nat.le_refl t) (by omega)
  have hfrom : ∃ d, d ≤ t ∧ t ≤ d + level ∧ v d stateReg = 2 := by
    rcases hs with h2 | h3
    · exact ⟨t, by omega, by omega, h2⟩
    · obtain ⟨d, hdt, htd, hd⟩ := h.waiting_from hr (by omega) h3
      exact ⟨d, by omega, htd, hd⟩
  obtain ⟨d, hdt, htd, hd⟩ := hfrom
  rcases hi.finished t ht hseen (hl.done hs) with ⟨⟨hlt, hsee⟩, hn'⟩ | ⟨hno, hn'⟩
  · -- the drain that is seen is this one, so this is its last cycle
    have he : t = d + level := by
      by_cases he : t = d + level
      · exact he
      · have h3 := h.drain_states hr hsee (x := d) (by omega) (by omega) (by omega)
        simp [hd] at h3
    have hn : v (t + 1) stateReg = 0 := by rw [he]; exact h.drain_idle hr hd (by omega)
    exact ⟨by simp [hn, hn'], by simp [hn]⟩
  · have hlt : t < d + level := by
      by_cases he : t = d + level
      · exact absurd ⟨by omega, by rwa [show t - level = d by omega]⟩ hno
      · omega
    have hn := h.drain_states hr hd (x := t + 1) (by omega) (by omega) ht
    exact ⟨by simp [hn, hn'], fun _ => hn'⟩

/-- The instance stays in lock step up to cycle `c` if it was prompt in all hurried phases that
began before. -/
theorem locked_of_prompt (hw : i ∈ waited) {c : Nat}
    (hp : ∀ a, a + 1 < c → Hurried level v a → Prompt v i (a + 1)) (htc : t ≤ c) (ht : t < n) :
    Locked v i t := by
  induction t using Nat.strongRecOn with
  | ind t ih =>
    cases t with
    | zero => exact ⟨by simp [h.first, hi.first], by simp [h.first]⟩
    | succ t =>
      have hall : ∀ x ≤ t, Locked v i x := fun x hx => ih x (by omega) (by omega) (by omega)
      have hl := hall t (Nat.le_refl t)
      by_cases hk : k + level ≤ t
      · have hreset := h.released_from hr (t := t) (by omega) (by omega)
        rcases h.code t (by omega) with h0 | h1 | h2 | h3
        · exact hl.step_idle h hi hr ht h0 hk
        · rcases h.running t ht hreset h1 with ⟨hseen, hn, -⟩ | ⟨-, hn⟩
          · exact .step_finish h hi hr hall ht h1 hn (hseen i hw) fun a ha => hp a (by omega)
          · exact hl.step_running h hi hr ht h1 hn
        · exact hl.step_drain h hi hr ht (.inl h2)
        · exact hl.step_drain h hi hr ht (.inr h3)
      · -- the release has not passed through the pipelines yet
        have hn' := hi.held hr.reset ht (by omega)
        have hn : v (t + 1) stateReg = 0 := by
          by_cases hn : v (t + 1) stateReg = 0
          · exact hn
          · have := h.busy_after hr ht hn
            omega
        exact ⟨by simp [hn, hn'], by simp [hn]⟩

end

/-! ### Runs of the composite -/

/-- A run of the composite: the cycles between the idle cycle `a` and the cycle `e`. -/
structure BusyBetween (n : Nat) (v : Nat → String → UInt64) (a e : Nat) : Prop where
  idle : v a stateReg = 0
  nonempty : a + 1 < e
  within : e ≤ n
  busy : ∀ x, a < x → x < e → v x stateReg ≠ 0

/-- From the first cycle of a run to cycle `x` the instance was started in one stretch. -/
def StartedOnce (v : Nat → String → UInt64) (i : String) (a x : Nat) : Prop :=
  ∃ u, a + 1 < u ∧ u ≤ x + 1 ∧ ∀ y, a < y → y ≤ x → (v y (instanceState i) = 1 ↔ y < u)

theorem StartedOnce.extend {a x : Nat} (h : StartedOnce v i a x) (hax : a < x)
    (hback : v (x + 1) (instanceState i) = 1 → v x (instanceState i) = 1) :
    StartedOnce v i a (x + 1) := by
  obtain ⟨u, hu, hux, hiff⟩ := h
  by_cases h1 : v (x + 1) (instanceState i) = 1
  · have hxu := (hiff x hax (Nat.le_refl x)).1 (hback h1)
    refine ⟨x + 2, by omega, by omega, fun y hy hy' => ⟨fun _ => by omega, fun _ => ?_⟩⟩
    by_cases hyx : y = x + 1
    · rwa [hyx]
    · exact (hiff y hy (by omega)).2 (by omega)
  · refine ⟨u, hu, by omega, fun y hy hy' => ?_⟩
    by_cases hyx : y = x + 1
    · subst hyx
      exact ⟨fun h => absurd h h1, fun h => by omega⟩
    · exact hiff y hy (by omega)

/-- One cycle of an instance that is idle neither before nor after it. -/
theorem Handshake.busy_step (hi : Handshake level n v i) (ht : t + 1 < n)
    (hseen : Seen level (Up v resetPort) t) (hs : v t (instanceState i) ≠ 0)
    (hs' : v (t + 1) (instanceState i) ≠ 0) :
    (v (t + 1) (instanceState i) = 1 → v t (instanceState i) = 1) ∧
    (v (t + 1) (instanceState i) = 2 → v t (instanceState i) = 2 ∨ Latches v i t) := by
  rcases hi.code t (by omega) with h0 | h1 | h2 | h3
  · exact absurd h0 hs
  · refine ⟨fun _ => h1, fun h2 => ?_⟩
    rcases hi.started t ht hseen h1 with ⟨-, hn⟩ | ⟨hready, hdone, -⟩ | ⟨-, -, hn⟩
    · simp [hn] at h2
    · exact .inr ⟨hdone, .inl ⟨h1, hready⟩⟩
    · simp [hn] at h2
  · rcases hi.finished t ht hseen h2 with ⟨-, hn⟩ | ⟨-, hn⟩
    · exact absurd hn hs'
    · exact ⟨fun h => by simp [hn] at h, fun _ => .inl h2⟩
  · rcases hi.waiting t ht hseen h3 with ⟨hdone, hn⟩ | ⟨-, hn⟩
    · exact ⟨fun h => by simp [hn] at h, fun _ => .inr ⟨hdone, .inr h3⟩⟩
    · exact ⟨fun h => by simp [hn] at h, fun h => by simp [hn] at h⟩

/-- An instance in a run up to cycle `x`: it was started in one stretch, and if it is done, that was
latched in the run. -/
theorem Locked.through_run (h : Controller level n v waited) (hi : Handshake level n v i)
    (hr : ReleasedOnce n v k) {a e : Nat} (hl : ∀ t < e, Locked v i t) (hrun : BusyBetween n v a e)
    {x : Nat} (hax : a < x) (hxe : x < e) : StartedOnce v i a x ∧
      (v x (instanceState i) = 2 → ∃ d, a < d ∧ d < x ∧ Latches v i d) := by
  have hen := hrun.within
  have hstarts : v (a + 1) (instanceState i) = 1 := by
    have hbusy := hrun.busy (a + 1) (by omega) hrun.nonempty
    have hreset := h.released_from hr (t := a) (by omega)
      (by have := h.busy_after hr (by omega) hbusy; omega)
    rcases h.idle a (by omega) hreset hrun.idle with ⟨-, h1⟩ | ⟨-, h0⟩
    · exact hi.starts h hr (by omega) ((hl a (by omega)).idle.2 hrun.idle) hrun.idle h1
    · exact absurd h0 hbusy
  have hne (x : Nat) (hax : a < x) (hxe : x < e) : v x (instanceState i) ≠ 0 := fun h0 =>
    hrun.busy x hax hxe ((hl x hxe).idle.1 h0)
  obtain ⟨j, rfl⟩ : ∃ j, x = a + 1 + j := ⟨x - (a + 1), by omega⟩
  clear hax
  induction j with
  | zero =>
    refine ⟨⟨a + 2, by omega, by omega, fun y hy hy' => ?_⟩, fun h2 => ?_⟩
    · rw [show y = a + 1 by omega]
      exact ⟨fun _ => by omega, fun _ => hstarts⟩
    · simp [hstarts] at h2
  | succ j ih =>
    obtain ⟨honce, hlatch⟩ := ih (by omega)
    have hseen := h.seen_of_busy hr (t := a + 1 + j) (by omega)
      (hrun.busy (a + 1 + j) (by omega) (by omega)) (Nat.le_refl _) (by omega)
    obtain ⟨hback, hdone⟩ := hi.busy_step (t := a + 1 + j) (by omega) hseen
      (hne _ (by omega) (by omega)) (hne (a + 1 + j + 1) (by omega) hxe)
    refine ⟨honce.extend (by omega) hback, fun h2 => ?_⟩
    rcases hdone h2 with h2' | hl'
    · obtain ⟨d, had, hdx, hld⟩ := hlatch h2'
      exact ⟨d, had, by omega, hld⟩
    · exact ⟨a + 1 + j, by omega, by omega, hl'⟩

theorem Locked.latched_of_end (h : Controller level n v waited) (hi : Handshake level n v i)
    (hr : ReleasedOnce n v k) {a e : Nat} (hl : ∀ t < e, Locked v i t) (hrun : BusyBetween n v a e)
    (he : e < n) (hend : v e stateReg = 0) : ∃ d, a < d ∧ d < e ∧ Latches v i d := by
  obtain ⟨x, rfl⟩ : ∃ x, e = x + 1 := ⟨e - 1, by have := hrun.nonempty; omega⟩
  have hax : a < x := by have := hrun.nonempty; omega
  obtain ⟨d, hd, hxd⟩ := h.end_from hr he (hrun.busy x hax (by omega)) hend
  have hdrain : v x stateReg = 2 ∨ v x stateReg = 3 := by
    by_cases hlv : level = 0
    · left
      rw [hxd, hlv]
      exact hd
    · exact .inr (h.drain_states hr hd (by omega) (by omega) (by omega))
  obtain ⟨-, hlatch⟩ := Locked.through_run h hi hr hl hrun hax (by omega)
  obtain ⟨d', had, hdx, hld⟩ := hlatch ((hl x (by omega)).done hdrain)
  exact ⟨d', had, by omega, hld⟩

/-- Without a start in the cycles after the first drain cycle no run is hurried. -/
theorem Controller.not_hurried (h : Controller level n v waited) (hr : ReleasedOnce n v k)
    (hquiet : ∀ d < n, v d stateReg = 2 → ∀ x, d < x → x < d + level → x < n → v x startPort = 0)
    {a : Nat} (ha : a + 1 < n) : ¬ Hurried level v a := by
  rintro ⟨h0, h1, e, hea, he, he', hae⟩
  obtain ⟨d, hd, rfl⟩ := h.end_from hr (by omega) he he'
  have hk := h.busy_after hr ha (by rw [h1]; decide)
  have hreset := h.released_from hr (t := a) (by omega) (by omega)
  rcases h.idle a ha hreset h0 with ⟨⟨hla, hup⟩, -⟩ | ⟨-, hn⟩
  · refine hup ?_
    rw [hquiet d (by omega) hd (a - level) (by omega) (by omega) (by omega)]
    rfl
  · simp [h1] at hn

/-- All handshake ports of a module are one bit wide. -/
def Module.HasBitPorts (m : Module) : Prop :=
  ∀ p ∈ m.ports, p.name ∈ handshakePorts → BitRange.width p.range = .ok 1

/-- The composite is not started again in the `level - 1` cycles after a cycle in which it was
ready. -/
def StartsSpaced (level n : Nat) (v : Nat → String → UInt64) : Prop :=
  ∀ d < n, v d readyPort = 1 → ∀ x, d < x → x < d + level → x < n → v x startPort = 0

theorem Layout.ready_of_drain {items : List Item} {c : Circuit} {cs : List Simulator}
    (h : Layout level waited items) (hc : Trace items c cs) {m : Module}
    (hm : m.ports = portsOf items) (hbits : m.HasBitPorts) (ht : t < cs.length)
    (hs : valueAt cs t stateReg = 2) : valueAt cs t readyPort = 1 := by
  have hn : readyPort ∈ handshakePorts := by simp [handshakePorts]
  obtain ⟨p, hp, hname⟩ := h.ports readyPort hn
  have hw : c.width readyPort = 1 := by
    rw [← hname, hc.reads.port p hp, BitRange.simulatedWidth,
      hbits p (by rw [hm, mem_portsOf]; exact hp) (hname ▸ hn)]
    rfl
  rw [h.ready_eq hc ht, hs, hw]
  rfl

/-- The controllers of a generated module in lock step: with one release of the reset, no start
before it, and starts that are spaced, every instance that does not run on its own is idle exactly
when the composite is and done throughout the drain.  So in each run of the composite it is started
in one stretch, and it was done before the run ended. -/
theorem controllers_lockstep {o : Options} {program : Program} {parts : Parts} {task : Task}
    {m : Module} {ds : List Drive} {cs : List Simulator} {insts : List Instance} {k : Nat}
    (hlevel : o.registerLevel < signedBound) (hgen : (generateTask o program parts task).2 = .ok m)
    (hbits : m.HasBitPorts) (hrun : simulate m ds = .ok cs) (henv : LeavesRegisters m ds)
    (hrel : ReleasedOnce cs.length (valueAt cs) k)
    (hspaced : StartsSpaced o.registerLevel cs.length (valueAt cs))
    (hinsts : program.instances task = .ok insts) :
    ∀ i ∈ insts, i.isAutorun = false →
      (∀ t < cs.length,
        (valueAt cs t (instanceState i.name) = 0 ↔ valueAt cs t stateReg = 0) ∧
        (valueAt cs t stateReg = 2 ∨ valueAt cs t stateReg = 3 →
          valueAt cs t (instanceState i.name) = 2)) ∧
      (∀ t < cs.length, valueAt cs t stateReg = 0 → valueAt cs t (instanceStart i.name) = 0) ∧
      ∀ a e, BusyBetween cs.length (valueAt cs) a e →
        (∃ u, a + 1 < u ∧ u ≤ e ∧
          ∀ x, a < x → x < e → (valueAt cs x (instanceStart i.name) = 1 ↔ x < u)) ∧
        (e < cs.length → valueAt cs e stateReg = 0 →
          ∃ d, a < d ∧ d < e ∧ Latches (valueAt cs) i.name d) := by
  intro i hi hauto
  obtain ⟨insts', items, c, hinsts', hports, hlayout, hc, -⟩ := generateTask_trace hgen hrun henv
  obtain rfl : insts = insts' := Except.ok.inj (hinsts.symm.trans hinsts')
  have hwaited := mem_waitedNames hi hauto
  have hctl := hlayout.controls hc hlevel
  have hshake := hlayout.handshakes hc hwaited
  have hquiet : ∀ d < cs.length, valueAt cs d stateReg = 2 → ∀ x, d < x →
      x < d + o.registerLevel → x < cs.length → valueAt cs x startPort = 0 := fun d hd hs =>
    hspaced d hd (hlayout.ready_of_drain hc hports hbits hd hs)
  have hlock : ∀ t < cs.length, Locked (valueAt cs) i.name t := fun t ht =>
    locked_of_prompt hctl hshake hrel hwaited (c := t)
      (fun a ha hh => absurd hh (hctl.not_hurried hrel hquiet (by omega))) (Nat.le_refl t) ht
  refine ⟨fun t ht => ⟨(hlock t ht).idle, (hlock t ht).done⟩, fun t ht h0 => ?_,
    fun a e hbusy => ?_⟩
  · rw [hshake.start t ht, (hlock t ht).idle.2 h0]
    rfl
  · have hen := hbusy.within
    have hne := hbusy.nonempty
    have hl : ∀ t < e, Locked (valueAt cs) i.name t := fun t ht => hlock t (by omega)
    refine ⟨?_, fun he hend => Locked.latched_of_end hctl hshake hrel hl hbusy he hend⟩
    obtain ⟨⟨u, hu, hue, hiff⟩, -⟩ :=
      Locked.through_run hctl hshake hrel hl hbusy (x := e - 1) (by omega) (by omega)
    refine ⟨u, hu, by omega, fun x hax hxe => ?_⟩
    rw [hshake.start_iff (by omega)]
    exact hiff x hax (by omega)

theorem SoloRun.released {m : Module} {start answer : Nat → Bool} {cs : List Simulator}
    (h : SoloRun m level n start answer cs) : ReleasedOnce cs.length (valueAt cs) 0 := by
  have hlen := h.length
  refine ⟨fun t ht => ?_, fun t _ ht => absurd ht (Nat.not_lt_zero t)⟩
  rw [if_neg (Nat.not_lt_zero t)]
  exact h.reset t (by omega)

theorem DemoRun.busy {cs : List Simulator} (h : DemoRun cs) :
    BusyBetween cs.length (valueAt cs) 2 11 ∧ valueAt cs 11 stateReg = 0 := by
  have hlen := h.length
  have hbusy : ∀ x < 11, 2 < x → (momentAt 2 demoStart demoAnswer x).composite ≠ 0 := by decide
  refine ⟨⟨(h.shows (by decide)).composite, by decide, by omega, fun x hx hx' => ?_⟩,
    (h.shows (by decide)).composite⟩
  rw [(h.shows (by omega)).composite]
  exact hbusy x hx' hx

theorem DemoRun.spaced {cs : List Simulator} (h : DemoRun cs) :
    StartsSpaced 2 cs.length (valueAt cs) := by
  have hlen := h.length
  have hquiet : ∀ d < 14, (momentAt 2 demoStart demoAnswer d).composite = 2 →
      ∀ x < 14, d < x → x < d + 2 → demoStart x = false := by decide
  intro d hd hready x hdx hxd hx
  have hport : ⟨readyPort, .output, none⟩ ∈ demoModule.ports := by
    rw [demo_ports]
    decide
  rw [h.ready_eq hport (by omega), (h.shows (by omega)).composite] at hready
  have hdrain : (momentAt 2 demoStart demoAnswer d).composite = 2 := by
    by_contra hne
    rw [beq_false_of_ne hne] at hready
    cases hready
  rw [h.start x (by omega), hquiet d (by omega) hdrain x (by omega) hdx hxd]
  rfl

/-- A run in which the composite is started twice. -/
theorem controllers_lockstep_demo :
    (generateTask demoOptions demoProgram demoParts demoTask).2 = .ok demoModule ∧
    demoModule.HasBitPorts ∧ LeavesRegisters demoModule demoDrives ∧
    demoProgram.instances demoTask = .ok [demoInstance] ∧
    ∃ cs, simulate demoModule demoDrives = .ok cs ∧ ReleasedOnce cs.length (valueAt cs) 0 ∧
      StartsSpaced 2 cs.length (valueAt cs) ∧ valueAt cs 8 (instanceState "A_0") = 2 ∧
      (∃ u, 3 < u ∧ u ≤ 11 ∧
        ∀ x, 2 < x → x < 11 → (valueAt cs x (instanceStart "A_0") = 1 ↔ x < u)) ∧
      ∃ d, 2 < d ∧ d < 11 ∧ Latches (valueAt cs) "A_0" d := by
  obtain ⟨cs, hcs⟩ := demo_run
  have hlen := hcs.length
  have hbits : demoModule.HasBitPorts := by
    intro p hp _
    rw [demo_ports] at hp
    have hnone : ∀ p ∈ basePorts, p.range = none := by decide
    rw [hnone p hp]
    rfl
  obtain ⟨hbusy, hend⟩ := hcs.busy
  obtain ⟨hlock, -, hrun⟩ := controllers_lockstep (o := demoOptions) (by decide) demo_generates
    hbits hcs.run demo_leaves hcs.released hcs.spaced demo_instances demoInstance (by decide)
    (by decide)
  obtain ⟨hstart, hlatch⟩ := hrun 2 11 hbusy
  exact ⟨demo_generates, hbits, demo_leaves, demo_instances, cs, hcs.run, hcs.released, hcs.spaced,
    (hlock 8 (by omega)).2 (.inl (hcs.shows (by decide)).composite), hstart, hlatch (by omega) hend⟩

end TaskLoom
