import TaskLoom.Proofs.Controller.Runs

/-!
# How a composite drains

When a run ends, the controller of a composite enters its drain, in which it stays for `level`
further cycles so that everything in flight arrives.  The countdown is loaded on the way in
(`Controller.count_of_drain`) and decides how long the drain lasts (`Controller.drain_run`,
`Controller.drain_end`).
-/

namespace TaskLoom

namespace Controller

variable {level n : Nat} {v : Nat → String → UInt64} {waited : List String} {t : Nat}

theorem before_drain (h : Controller level n v waited) (ht : t + 1 < n)
    (hs : v (t + 1) stateReg = 2) : v t resetWire = 0 ∧ v t stateReg = 1 ∧
      (∀ i ∈ waited, Seen level (fun u => v u (instanceState i) = 2) t) ∧
      (v (t + 1) countdownReg).toNat = level - 1 := by
  by_cases hr : v t resetWire = 0
  · refine ⟨hr, ?_⟩
    rcases h.code t (by omega) with h0 | h1 | h2 | h3
    · rcases h.idle t ht hr h0 with ⟨-, hn⟩ | ⟨-, hn⟩ <;> simp [hn] at hs
    · rcases h.running t ht hr h1 with ⟨hall, -, hc⟩ | ⟨-, hn⟩
      · exact ⟨h1, hall, hc⟩
      · simp [hn] at hs
    · have hn := (h.drain t ht hr h2).1
      rw [hn] at hs
      split at hs <;> simp at hs
    · rcases h.waiting t ht hr h3 with ⟨-, hn⟩ | ⟨-, hn⟩ <;> simp [hn] at hs
  · simp [h.reset t ht hr] at hs

theorem count_of_drain (h : Controller level n v waited) (ht : t < n) (hs : v t stateReg = 2) :
    (v t countdownReg).toNat = level - 1 := by
  cases t with
  | zero => simp [h.first] at hs
  | succ t => exact (h.before_drain ht hs).2.2.2

/-- The countdown in the further drain cycles: the `j`-th of them sees `level - j`. -/
theorem drain_run (h : Controller level n v waited) (hs : v t stateReg = 2) {j : Nat}
    (hj : 0 < j) (hjl : j ≤ level) (ht : t + j < n)
    (hr : ∀ u, t ≤ u → u < t + j → v u resetWire = 0) :
    v (t + j) stateReg = 3 ∧ (v (t + j) countdownReg).toNat + j = level := by
  induction j with
  | zero => omega
  | succ j ih =>
    by_cases hj0 : j = 0
    · subst hj0
      obtain ⟨hn, hc⟩ := h.drain t ht (hr t (by omega) (by omega)) hs
      rw [if_pos (by omega)] at hn
      refine ⟨hn, ?_⟩
      rw [hc, h.count_of_drain (by omega) hs]
      omega
    · obtain ⟨hn, hc⟩ := ih (by omega) (by omega) (by omega) fun u hu hu' => hr u hu (by omega)
      rcases h.waiting (t + j) (by omega) (hr _ (by omega) (by omega)) hn with ⟨h0, -⟩ | ⟨hd, hn'⟩
      · omega
      · refine ⟨hn', ?_⟩
        show (v (t + j + 1) countdownReg).toNat + (j + 1) = level
        omega

theorem drain_end (h : Controller level n v waited) (hs : v t stateReg = 2)
    (ht : t + level + 1 < n) (hr : ∀ u, t ≤ u → u ≤ t + level → v u resetWire = 0) :
    v (t + level + 1) stateReg = 0 := by
  by_cases hl : level = 0
  · subst hl
    have hn := (h.drain t ht (hr t (by omega) (by omega)) hs).1
    rwa [if_neg (by omega)] at hn
  · obtain ⟨hn, hc⟩ := h.drain_run hs (j := level) (by omega) (by omega) (by omega)
      fun u hu hu' => hr u hu (by omega)
    rcases h.waiting (t + level) ht (hr _ (by omega) (by omega)) hn with ⟨-, h0⟩ | ⟨hd, -⟩
    · exact h0
    · omega

end Controller

/-- The range of a port leaves it no bits at all. -/
def Module.Bitless (m : Module) (name : String) : Prop :=
  ∃ p ∈ m.ports, p.name = name ∧ BitRange.width p.range = .ok 0

theorem simulatedWidth_eq_zero {r : Option BitRange} :
    BitRange.simulatedWidth r = 0 ↔ BitRange.width r = .ok 0 := by
  unfold BitRange.simulatedWidth
  cases BitRange.width r with
  | error e => simp
  | ok w =>
    simp only [Except.ok.injEq]
    split <;> omega

theorem mask_bit_eq_iff (w w' : Int) :
    Literal.mask 1 w = Literal.mask 1 w' ↔ (w = 0 ↔ w' = 0) := by
  have hone (w : Int) (h : w ≠ 0) : Literal.mask 1 w = 1 := Literal.mask_bitOf h true
  have hzero : Literal.mask 1 0 = 0 := rfl
  by_cases h : w = 0 <;> by_cases h' : w' = 0 <;> simp [h, h', hone, hzero]

section
variable {level : Nat} {waited : List String} {items : List Item} {c : Circuit}
  {cs : List Simulator}

theorem Layout.bitless_iff (h : Layout level waited items) (hc : Trace items c cs) {m : Module}
    (hm : m.ports = portsOf items) {name : String} (hn : name ∈ handshakePorts) :
    m.Bitless name ↔ c.width name = 0 := by
  obtain ⟨p, hp, rfl⟩ := h.ports name hn
  rw [hc.reads.port p hp, simulatedWidth_eq_zero]
  constructor
  · rintro ⟨q, hq, hname, hw⟩
    rw [hm, mem_portsOf] at hq
    injection item_unique hc.reads.nodup hq hp (n := p.name) (by rw [← hname]; rfl) rfl with he
    exact he ▸ hw
  · intro hw
    exact ⟨p, by rw [hm, mem_portsOf]; exact hp, rfl, hw⟩

/-- The done port repeats the ready port exactly if both or neither can show a bit, or no run
ends. -/
theorem Layout.done_ready_iff (h : Layout level waited items) (hc : Trace items c cs) :
    (∀ t, level ≤ t → t < cs.length → valueAt cs t donePort = valueAt cs (t - level) readyPort) ↔
      (c.width donePort = 0 ↔ c.width readyPort = 0) ∨
      ∀ d, d + level < cs.length → valueAt cs d stateReg ≠ 2 := by
  constructor
  · intro heq
    by_cases hw : c.width donePort = 0 ↔ c.width readyPort = 0
    · exact .inl hw
    · refine .inr fun d hd h2 => hw ?_
      have hd' := heq (d + level) (by omega) hd
      rw [h.done_eq hc hd, if_pos (by omega), Nat.add_sub_cancel, h.ready_eq hc (by omega),
        h2] at hd'
      exact (mask_bit_eq_iff _ _).1 hd'
  · intro hor t hl ht
    rw [h.done_eq hc ht, if_pos hl, h.ready_eq hc (by omega)]
    by_cases h2 : valueAt cs (t - level) stateReg = 2
    · rw [h2]
      rcases hor with hw | hno
      · exact (mask_bit_eq_iff _ _).2 hw
      · exact absurd h2 (hno _ (by omega))
    · rw [show (valueAt cs (t - level) stateReg == 2) = false by simp [h2]]
      exact (Literal.mask_zero _).trans (Literal.mask_zero _).symm

end

/-- How every generated module drains: from the first drain cycle on, with the reset released, it
spends `level` cycles in the further drain and is idle right after.  The done port repeats the ready
port `level` cycles later, except that a port whose range leaves it no bits shows nothing. -/
theorem drain_timing {o : Options} {program : Program} {parts : Parts} {task : Task} {m : Module}
    {ds : List Drive} {cs : List Simulator} (hlevel : o.registerLevel < signedBound)
    (hgen : (generateTask o program parts task).2 = .ok m) (hrun : simulate m ds = .ok cs)
    (henv : LeavesRegisters m ds) :
    (∀ t < cs.length, valueAt cs t stateReg = 2 →
      (∀ u, t ≤ u → u ≤ t + o.registerLevel → u < cs.length → valueAt cs u resetPort = 1) →
      (∀ u, t < u → u ≤ t + o.registerLevel → u < cs.length → valueAt cs u stateReg = 3) ∧
      (t + o.registerLevel + 1 < cs.length →
        valueAt cs (t + o.registerLevel + 1) stateReg = 0)) ∧
    ((∀ t, o.registerLevel ≤ t → t < cs.length →
        valueAt cs t donePort = valueAt cs (t - o.registerLevel) readyPort) ↔
      (m.Bitless donePort ↔ m.Bitless readyPort) ∨
      ∀ d, d + o.registerLevel < cs.length → valueAt cs d stateReg ≠ 2) := by
  obtain ⟨insts, items, c, -, hports, hlayout, hc, -⟩ := generateTask_trace hgen hrun henv
  have hctl := hlayout.controls hc hlevel
  refine ⟨fun t ht hs hr => ⟨fun u hu hul hun => ?_, fun hend => ?_⟩, ?_⟩
  · obtain ⟨j, rfl⟩ : ∃ j, u = t + j := ⟨u - t, by omega⟩
    refine (hctl.drain_run hs (by omega) (by omega) hun fun u' hu' hlt => ?_).1
    exact hctl.released u' (by omega) (hr u' hu' (by omega) (by omega))
  · refine hctl.drain_end hs hend fun u hu hul => ?_
    exact hctl.released u (by omega) (hr u hu hul (by omega))
  · rw [hlayout.done_ready_iff hc, hlayout.bitless_iff hc hports (by simp [handshakePorts]),
      hlayout.bitless_iff hc hports (by simp [handshakePorts])]

/-- A run that drains from cycle 8 on. -/
theorem drain_timing_demo :
    (generateTask demoOptions demoProgram demoParts demoTask).2 = .ok demoModule ∧
    LeavesRegisters demoModule demoDrives ∧
    ∃ cs, simulate demoModule demoDrives = .ok cs ∧ valueAt cs 8 stateReg = 2 ∧
      valueAt cs 9 stateReg = 3 ∧ valueAt cs 10 stateReg = 3 ∧ valueAt cs 11 stateReg = 0 ∧
      valueAt cs 10 donePort = valueAt cs 8 readyPort := by
  obtain ⟨cs, hcs⟩ := demo_run
  have hlen := hcs.length
  have hstate : valueAt cs 8 stateReg = 2 := (hcs.shows (by decide)).composite
  obtain ⟨hdrain, hiff⟩ := drain_timing (o := demoOptions) (by decide) demo_generates hcs.run
    demo_leaves
  obtain ⟨hwait, hidle⟩ := hdrain 8 (by omega) hstate fun u _ _ hu => hcs.reset u (by omega)
  have hbits (name : String) : ¬ demoModule.Bitless name := by
    rintro ⟨p, hp, -, hw⟩
    rw [demo_ports] at hp
    have hnone : ∀ p ∈ basePorts, p.range = none := by decide
    rw [hnone p hp] at hw
    cases hw
  have hdone := hiff.2 (.inl (by simp [hbits]))
  exact ⟨demo_generates, demo_leaves, cs, hcs.run, hstate,
    hwait 9 (by decide) (by decide) (by omega), hwait 10 (by decide) (by decide) (by omega),
    hidle (by rw [hlen]; decide), hdone 10 (by decide) (by omega)⟩

/-- A range of as many bits as there are words, which is taken for one of no bits. -/
def wholeRange : BitRange := ⟨"9223372036854775807", "-9223372036854775808"⟩

/-- A skeleton with this range for its ready port. -/
def wideSkeleton : Module :=
  { name := "Top"
    ports := basePorts.map fun p => if p.name = readyPort then { p with range := wholeRange } else p }

def wideOptions : Options := { registerLevel := 0 }

def wideParts : Parts := { demoParts with skeletons := [("Top", wideSkeleton)] }

def wideModule : Module := soloModule wideOptions wideParts

theorem wide_solo : SoloModule wideOptions wideParts wideModule where
  generates := soloModule_generates (by decide +kernel)
  level := by decide
  inputs := by decide +kernel
  declared := by decide +kernel
  ranked := by constructor <;> decide +kernel
  targets := by decide +kernel

/-- A run at level 0 that drains in cycle 3, and shows that it is done but not that it is ready. -/
theorem done_without_ready :
    (generateTask wideOptions demoProgram wideParts demoTask).2 = .ok wideModule ∧
    LeavesRegisters wideModule (drivesOf 4 always always) ∧
    ∃ cs, simulate wideModule (drivesOf 4 always always) = .ok cs ∧ valueAt cs 3 stateReg = 2 ∧
      valueAt cs 3 donePort = 1 ∧ valueAt cs (3 - wideOptions.registerLevel) readyPort = 0 := by
  obtain ⟨cs, hcs⟩ := wide_solo.exists_run 4 always always
  have hstate : valueAt cs 3 stateReg = 2 := (hcs.shows (by decide)).composite
  have hready : ⟨readyPort, .output, some wholeRange⟩ ∈ wideModule.ports := by decide +kernel
  have hdone : ⟨donePort, .output, none⟩ ∈ wideModule.ports := by decide +kernel
  refine ⟨wide_solo.generates, wide_solo.leaves 4 _ _, cs, hcs.run, hstate, ?_, ?_⟩
  · rw [hcs.done_eq hdone (by decide) (by decide), show 3 - wideOptions.registerLevel = 3 from rfl,
      hstate]
    decide +kernel
  · rw [show 3 - wideOptions.registerLevel = 3 from rfl, hcs.ready_eq hready (by decide), hstate]
    decide +kernel

end TaskLoom
